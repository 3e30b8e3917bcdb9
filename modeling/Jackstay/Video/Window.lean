import Mathlib.Data.List.Induction
import Jackstay.Video.Staging

/-!
What a reader finds on a page to which nothing is being pushed.

* `configsOf`: the stream values of a sequence of frames, each as often as it has changed; a
  frame names the last of them at its push.
* `Page.Settled`: what the stores of the producer leave in the rings, and which config a frame
  has named.
* `Page.pushAll`: the page after a sequence of pushes.
* `Page.readEntryForCursor`, `Page.ringSnapshot`, `Page.configSnapshot`: the reads, when no store
  comes between their loads.
* `Page.returns_readEntryForCursor`: the loads of such a read, one after the other, return the same.
* `Page.Counts`: the cursor of the next push is the one that the page has it at.
* `window_exact`: which cursors are read, and how the others fail.
-/

namespace Jackstay.Video

open Seqlock Transition

/-! ### The configs of a sequence of frames -/

/-- One frame more: `ensure_stream_config` repeats the last config, or adds one. -/
def addConfig (cs : List StreamConfig) (e : PendingVideoRingEntry) : List StreamConfig :=
  if cs.getLast? = some e.body then cs else cs ++ [e.body]

/-- The configs that a sequence of frames goes through. -/
def configsOf (es : List PendingVideoRingEntry) : List StreamConfig := es.foldl addConfig []

/-- The generation that the frame with this cursor names. -/
def generationAt (es : List PendingVideoRingEntry) (cursor : ℕ) : ℕ :=
  (configsOf (es.take cursor)).length

lemma configsOf_append (es : List PendingVideoRingEntry) (e : PendingVideoRingEntry) :
    configsOf (es ++ [e]) = addConfig (configsOf es) e := by
  rw [configsOf, List.foldl_append]
  rfl

lemma addConfig_cases (cs : List StreamConfig) (e : PendingVideoRingEntry) :
    (addConfig cs e = cs ∧ cs.getLast? = some e.body) ∨ addConfig cs e = cs ++ [e.body] := by
  rw [addConfig]
  split_ifs with hlast
  · exact Or.inl ⟨rfl, hlast⟩
  · exact Or.inr rfl

lemma length_addConfig (cs : List StreamConfig) (e : PendingVideoRingEntry) :
    cs.length ≤ (addConfig cs e).length ∧ 0 < (addConfig cs e).length := by
  rcases addConfig_cases cs e with ⟨hsame, hlast⟩ | hnew
  · rw [hsame]
    refine ⟨le_rfl, List.length_pos_of_ne_nil ?_⟩
    rintro rfl
    cases hlast
  · rw [hnew, List.length_append]
    exact ⟨Nat.le_add_right _ _, Nat.succ_pos _⟩

/-- The generations of the frames do not decrease. -/
lemma generationAt_le (es : List PendingVideoRingEntry) (cursor : ℕ) :
    generationAt es cursor ≤ (configsOf es).length := by
  induction es using List.reverseRecOn with
  | nil => simp [generationAt]
  | append_singleton es e ih =>
      rw [configsOf_append]
      rcases Nat.lt_or_ge es.length cursor with hlt | hle
      · rw [generationAt, List.take_of_length_le (by rw [List.length_append]; exact hlt),
          configsOf_append]
      · rw [generationAt, List.take_append_of_le_length hle]
        exact ih.trans (length_addConfig (configsOf es) e).1

lemma generationAt_pos {es : List PendingVideoRingEntry} {cursor : ℕ} (hpos : 0 < cursor)
    (hle : cursor ≤ es.length) : 0 < generationAt es cursor := by
  obtain ⟨k, rfl⟩ : ∃ k, cursor = k + 1 := ⟨cursor - 1, by omega⟩
  rw [generationAt, List.take_succ_eq_append_getElem (by omega), configsOf_append]
  exact (length_addConfig _ _).2

/-! ### The stores of a push -/

namespace Page

/-- **The stores of `push`**, one by one. -/
inductive Stores (p : Page) : Page → Prop
  | repeats {e : PendingVideoRingEntry} {generation : ℕ} : p.push = .config e →
      p.producerConfig = some (generation, e.body) → Stores p { p with push := .slot e generation }
  | begins {e : PendingVideoRingEntry} : p.push = .config e →
      (∀ generation, p.producerConfig ≠ some (generation, e.body)) → Stores p (p.beginConfig e)
  | configWord {e : PendingVideoRingEntry} {generation : ℕ} {f : ConfigField}
      {todo : List ConfigField} : p.push = .configStore e generation (f :: todo) →
      Stores p { p.setConfig (configIndex generation)
          ((p.configs (configIndex generation)).store f (e.body.words f)) with
        push := .configStore e generation todo }
  | configDone {e : PendingVideoRingEntry} {generation : ℕ} :
      p.push = .configStore e generation [] →
      Stores p { p.setConfig (configIndex generation)
          ((p.configs (configIndex generation)).publish generation) with
        push := .configCursor e generation }
  | configCursor {e : PendingVideoRingEntry} {generation : ℕ} :
      p.push = .configCursor e generation →
      Stores p { p with
        configCursor := generation
        producerConfig := some (generation, e.body)
        push := .slot e generation }
  | slot {e : PendingVideoRingEntry} {generation : ℕ} : p.push = .slot e generation →
      Stores p { p.setSlot (p.slotIndex (p.producerCursor + 1))
          ((p.slots (p.slotIndex (p.producerCursor + 1))).invalidate (p.producerCursor + 1)) with
        pushes := p.pushes ++ [(e, generation)]
        push := .slotStore e generation (p.producerCursor + 1) SlotField.all }
  | slotWord {e : PendingVideoRingEntry} {generation cursor : ℕ} {f : SlotField}
      {todo : List SlotField} : p.push = .slotStore e generation cursor (f :: todo) →
      Stores p { p.setSlot (p.slotIndex cursor)
          ((p.slots (p.slotIndex cursor)).store f ((e.slot generation).words f)) with
        push := .slotStore e generation cursor todo }
  | slotDone {e : PendingVideoRingEntry} {generation cursor : ℕ} :
      p.push = .slotStore e generation cursor [] →
      Stores p { p.setSlot (p.slotIndex cursor)
          ((p.slots (p.slotIndex cursor)).publish cursor) with push := .cursor cursor }
  | cursor {cursor : ℕ} : p.push = .cursor cursor →
      Stores p { p with producerCursor := cursor, push := .idle }

variable {p p' : Page}

lemma stores_of_pushStep (hs : p.pushStep = some p') : p.Stores p' := by
  rw [pushStep] at hs
  cases hpc : p.push with
  | idle =>
      rw [hpc] at hs
      cases hs
  | config e =>
      rw [hpc] at hs
      cases hconfig : p.producerConfig with
      | none =>
          simp only [hconfig, Option.some.injEq] at hs
          subst hs
          exact .begins hpc fun _ h0 => by cases hconfig.symm.trans h0
      | some cached =>
          simp only [hconfig] at hs
          obtain ⟨generation, body⟩ := cached
          by_cases hbody : body = e.body
          · subst hbody
            rw [if_pos rfl, Option.some.injEq] at hs
            have hp' : p' = { p with push := .slot e generation } := by rw [← hs, hconfig]
            subst hp'
            exact .repeats hpc hconfig
          · rw [if_neg hbody, Option.some.injEq] at hs
            subst hs
            refine .begins hpc fun other h0 => hbody ?_
            cases hconfig.symm.trans h0
            rfl
  | configStore e generation todo =>
      rw [hpc] at hs
      cases todo with
      | nil =>
          cases hs
          exact .configDone hpc
      | cons f todo =>
          cases hs
          exact .configWord hpc
  | configCursor e generation =>
      rw [hpc] at hs
      cases hs
      exact .configCursor hpc
  | slot e generation =>
      rw [hpc] at hs
      cases hs
      exact .slot hpc
  | slotStore e generation cursor todo =>
      rw [hpc] at hs
      cases todo with
      | nil =>
          cases hs
          exact .slotDone hpc
      | cons f todo =>
          cases hs
          exact .slotWord hpc
  | cursor cursor =>
      rw [hpc] at hs
      cases hs
      exact .cursor hpc

/-! ### What the stores leave behind -/

/-- The slot that is being written. -/
def slotWriting (p : Page) : PushPc → Option ℕ
  | .slotStore _ _ cursor _ => some (p.slotIndex cursor)
  | _ => none

/-- The config that is being written. -/
def configWriting : PushPc → Option ℕ
  | .configStore _ generation _ => some (configIndex generation)
  | _ => none

/-- The entries that have been pushed. -/
def entries (p : Page) : List PendingVideoRingEntry := p.pushes.map (·.1)

/-- The producer remembers the last config. -/
def Caches (p : Page) : Prop :=
  p.producerConfig = p.bodies.getLast?.map fun body => (p.bodies.length, body)

/-- The configs, at this point of `push`. -/
def Stamps (p : Page) : PushPc → Prop
  | .configStore e generation _ =>
      p.bodies = configsOf (p.entries ++ [e]) ∧ generation = p.bodies.length ∧
        p.bodies.getLast? = some e.body
  | .configCursor e generation =>
      p.bodies = configsOf (p.entries ++ [e]) ∧ generation = p.bodies.length ∧
        p.bodies.getLast? = some e.body
  | .slot e generation =>
      p.bodies = configsOf (p.entries ++ [e]) ∧ generation = p.bodies.length ∧ p.Caches
  | _ => p.bodies = configsOf p.entries ∧ p.Caches

/-- **What the stores leave in the rings**: a cell that is not being written names its last
version, every push has been written where it belongs, and it names the last config. -/
structure Settled (p : Page) : Prop where
  slots : ∀ k, p.slotWriting p.push ≠ some k → (p.slots k).sequence = (p.slots k).begun
  configs : ∀ k, configWriting p.push ≠ some k → (p.configs k).sequence = (p.configs k).begun
  /-- a version has been written where it belongs -/
  slotAt : ∀ k, (p.slots k).begun ≠ 0 → p.slotIndex (p.slots k).begun = k
  configAt : ∀ k, (p.configs k).begun ≠ 0 → configIndex (p.configs k).begun = k
  placed : ∀ c, 0 < c → c ≤ p.pushes.length → c ≤ (p.slots (p.slotIndex c)).begun
  stamped : ∀ c e generation, Logged p.pushes c (e, generation) →
    generation = generationAt p.entries c
  stamps : p.Stamps p.push

namespace Settled

/-- One cell of an array has been written. -/
lemma cells_update {ι : Type*} {cells : ℕ → Cell ι ℕ} {w w' : Option ℕ} {k : ℕ} {c : Cell ι ℕ}
    (h : ∀ j, w ≠ some j → (cells j).sequence = (cells j).begun) (hw : w = none ∨ w = some k)
    (hc : w' = some k ∨ c.sequence = c.begun) (j : ℕ) (hj : w' ≠ some j) :
    (Function.update cells k c j).sequence = (Function.update cells k c j).begun := by
  rw [Function.update_apply]
  split_ifs with hjk
  · rcases hc with hc | hc
    · exact absurd (hjk ▸ hc) hj
    · exact hc
  · refine h j fun h0 => hjk ?_
    rcases hw with hw | hw
    · cases hw.symm.trans h0
    · exact (Option.some.inj (hw.symm.trans h0)).symm

/-- One cell of an array has been written, and it belongs there. -/
lemma cells_at {ι : Type*} {cells : ℕ → Cell ι ℕ} {index : ℕ → ℕ} {k : ℕ} {c : Cell ι ℕ}
    (h : ∀ j, (cells j).begun ≠ 0 → index (cells j).begun = j) (j : ℕ)
    (hj : (Function.update cells k c j).begun ≠ 0)
    (hc : c.begun = (cells k).begun ∨ index c.begun = k) :
    index (Function.update cells k c j).begun = j := by
  rw [Function.update_apply] at hj ⊢
  split_ifs at hj ⊢ with hjk
  · subst hjk
    rcases hc with hc | hc
    · rw [hc] at hj ⊢
      exact h j hj
    · exact hc
  · exact h j hj

/-- The frame of a push that has begun is the last one. -/
lemma stamped_append {pushes : List (PendingVideoRingEntry × ℕ)} {e : PendingVideoRingEntry}
    {generation : ℕ}
    (h : ∀ c e generation, Logged pushes c (e, generation) →
      generation = generationAt (pushes.map (·.1)) c)
    (hlast : generation = (configsOf (pushes.map (·.1) ++ [e])).length) :
    ∀ c e' g, Logged (pushes ++ [(e, generation)]) c (e', g) →
      g = generationAt ((pushes ++ [(e, generation)]).map (·.1)) c := by
  intro c e' g hlog
  rw [List.map_append]
  rcases Nat.lt_or_ge pushes.length c with hlt | hle
  · have hlen := hlog.le
    rw [List.length_append] at hlen
    have hc : c = pushes.length + 1 := by
      have hone : [(e, generation)].length = 1 := rfl
      omega
    subst hc
    cases hlog.unique (Logged.last pushes (e, generation))
    rw [generationAt, List.take_of_length_le (by rw [List.length_append, List.length_map]; rfl)]
    exact hlast
  · rw [generationAt, List.take_append_of_le_length (by rw [List.length_map]; exact hle)]
    exact h c e' g (hlog.of_append hle)

/-- **Every store keeps what holds.** -/
lemma store (h : p.Settled) (hp : p.Producing) (hs : p.Stores p') : p'.Settled := by
  have hhere := hp.here
  have hstamps := h.stamps
  have hslots := h.slots
  have hconfigs := h.configs
  cases hs with
  | @repeats e generation hpc hcached =>
      rw [hpc] at hstamps hslots hconfigs
      obtain ⟨hbodies, hcaches⟩ := hstamps
      refine ⟨hslots, hconfigs, h.slotAt, h.configAt, h.placed, h.stamped, ?_, ?_, hcaches⟩
      · show p.bodies = configsOf (p.entries ++ [e])
        rw [configsOf_append, ← hbodies, addConfig, if_pos]
        rw [Caches, hcached] at hcaches
        obtain ⟨body, hbody, hsame⟩ := Option.map_eq_some_iff.mp hcaches.symm
        cases hsame
        exact hbody
      · rw [Caches, hcached] at hcaches
        obtain ⟨body, hbody, hsame⟩ := Option.map_eq_some_iff.mp hcaches.symm
        cases hsame
        rfl
  | @begins e hpc hnew =>
      rw [hpc] at hstamps hslots hconfigs hhere
      obtain ⟨hbodies, hcaches⟩ := hstamps
      have hadd : p.bodies ++ [e.body] = configsOf (p.entries ++ [e]) := by
        rw [configsOf_append, ← hbodies, addConfig, if_neg]
        intro hlast
        refine hnew p.bodies.length ?_
        rw [hcaches, hlast]
        rfl
      have hcells := p.configs_setConfig (configIndex (p.configCursor + 1))
        ((p.configs (configIndex (p.configCursor + 1))).invalidate (p.configCursor + 1))
      refine ⟨hslots, fun j hj => ?_, h.slotAt, fun j hj => ?_, h.placed, h.stamped, hadd, ?_,
        List.getLast?_concat⟩
      · show ((p.setConfig _ _).configs j).sequence = ((p.setConfig _ _).configs j).begun
        rw [hcells]
        exact cells_update hconfigs (Or.inl rfl) (Or.inl rfl) j hj
      · show configIndex ((p.setConfig _ _).configs j).begun = j
        have hj : ((p.setConfig _ _).configs j).begun ≠ 0 := hj
        rw [hcells] at hj ⊢
        exact cells_at h.configAt j hj (Or.inr rfl)
      · show p.configCursor + 1 = (p.bodies ++ [e.body]).length
        rw [List.length_append, hhere.1]
        rfl
  | @configWord e generation f todo hpc =>
      rw [hpc] at hstamps hslots hconfigs
      have hcells := p.configs_setConfig (configIndex generation)
        ((p.configs (configIndex generation)).store f (e.body.words f))
      refine ⟨hslots, fun j hj => ?_, h.slotAt, fun j hj => ?_, h.placed, h.stamped, hstamps⟩
      · show ((p.setConfig _ _).configs j).sequence = ((p.setConfig _ _).configs j).begun
        rw [hcells]
        exact cells_update hconfigs (Or.inr rfl) (Or.inl rfl) j hj
      · show configIndex ((p.setConfig _ _).configs j).begun = j
        have hj : ((p.setConfig _ _).configs j).begun ≠ 0 := hj
        rw [hcells] at hj ⊢
        exact cells_at h.configAt j hj (Or.inl rfl)
  | @configDone e generation hpc =>
      rw [hpc] at hstamps hslots hconfigs hhere
      obtain ⟨-, -, -, done, -, hstoring⟩ := hhere
      have hcells := p.configs_setConfig (configIndex generation)
        ((p.configs (configIndex generation)).publish generation)
      refine ⟨hslots, fun j hj => ?_, h.slotAt, fun j hj => ?_, h.placed, h.stamped, hstamps⟩
      · show ((p.setConfig _ _).configs j).sequence = ((p.setConfig _ _).configs j).begun
        rw [hcells]
        exact cells_update hconfigs (Or.inr rfl) (Or.inr hstoring.begun.symm) j hj
      · show configIndex ((p.setConfig _ _).configs j).begun = j
        have hj : ((p.setConfig _ _).configs j).begun ≠ 0 := hj
        rw [hcells] at hj ⊢
        exact cells_at h.configAt j hj (Or.inl rfl)
  | @configCursor e generation hpc =>
      rw [hpc] at hstamps hslots hconfigs
      obtain ⟨hbodies, hgeneration, hlast⟩ := hstamps
      refine ⟨hslots, hconfigs, h.slotAt, h.configAt, h.placed, h.stamped, hbodies, hgeneration, ?_⟩
      show some (generation, e.body) = p.bodies.getLast?.map fun body => (p.bodies.length, body)
      rw [hlast, hgeneration]
      rfl
  | @slot e generation hpc =>
      rw [hpc] at hstamps hslots hconfigs hhere
      obtain ⟨hbodies, hgeneration, hcaches⟩ := hstamps
      have hlength : p.pushes.length = p.producerCursor := hhere.1.2
      have hbegun := (hp.slots (p.slotIndex (p.producerCursor + 1))).2
      have hcells := p.slots_setSlot (p.slotIndex (p.producerCursor + 1))
        ((p.slots (p.slotIndex (p.producerCursor + 1))).invalidate (p.producerCursor + 1))
      have hentries : (p.pushes ++ [(e, generation)]).map (·.1) = p.entries ++ [e] := by
        rw [List.map_append]
        rfl
      refine ⟨fun j hj => ?_, hconfigs, fun j hj => ?_, h.configAt, fun c hpos hle => ?_, ?_, ?_,
        hcaches⟩
      · show ((p.setSlot _ _).slots j).sequence = ((p.setSlot _ _).slots j).begun
        rw [hcells]
        exact cells_update hslots (Or.inl rfl) (Or.inl rfl) j hj
      · show p.slotIndex ((p.setSlot _ _).slots j).begun = j
        have hj : ((p.setSlot _ _).slots j).begun ≠ 0 := hj
        rw [hcells] at hj ⊢
        exact cells_at h.slotAt j hj (Or.inr rfl)
      · show c ≤ ((p.setSlot _ _).slots (p.slotIndex c)).begun
        rw [hcells]
        have hle : c ≤ (p.pushes ++ [(e, generation)]).length := hle
        rw [List.length_append, List.length_singleton, hlength] at hle
        rcases Nat.lt_or_ge p.producerCursor c with hlt | hge
        · have hc : c = p.producerCursor + 1 := by omega
          rw [hc, Function.update_self]
          exact le_rfl
        · refine Cell.Writes.le_update (.invalidate (by omega)) (h.placed c hpos ?_)
          omega
      · exact stamped_append h.stamped (hgeneration.trans (congrArg List.length hbodies))
      · show p.bodies = configsOf ((p.pushes ++ [(e, generation)]).map (·.1))
        rw [hentries]
        exact hbodies
  | @slotWord e generation cursor f todo hpc =>
      rw [hpc] at hstamps hslots hconfigs hhere
      obtain ⟨-, -, -, done, -, hstoring⟩ := hhere
      have hcells := p.slots_setSlot (p.slotIndex cursor)
        ((p.slots (p.slotIndex cursor)).store f ((e.slot generation).words f))
      refine ⟨fun j hj => ?_, hconfigs, fun j hj => ?_, h.configAt, fun c hpos hle => ?_, h.stamped,
        hstamps⟩
      · show ((p.setSlot _ _).slots j).sequence = ((p.setSlot _ _).slots j).begun
        rw [hcells]
        exact cells_update hslots (Or.inr rfl) (Or.inl rfl) j hj
      · show p.slotIndex ((p.setSlot _ _).slots j).begun = j
        have hj : ((p.setSlot _ _).slots j).begun ≠ 0 := hj
        rw [hcells] at hj ⊢
        exact cells_at h.slotAt j hj (Or.inl rfl)
      · show c ≤ ((p.setSlot _ _).slots (p.slotIndex c)).begun
        rw [hcells]
        exact Cell.Writes.le_update (.store hstoring.sequence) (h.placed c hpos hle)
  | @slotDone e generation cursor hpc =>
      rw [hpc] at hstamps hslots hconfigs hhere
      obtain ⟨-, -, -, done, -, hstoring⟩ := hhere
      have hcells := p.slots_setSlot (p.slotIndex cursor)
        ((p.slots (p.slotIndex cursor)).publish cursor)
      refine ⟨fun j hj => ?_, hconfigs, fun j hj => ?_, h.configAt, fun c hpos hle => ?_, h.stamped,
        hstamps⟩
      · show ((p.setSlot _ _).slots j).sequence = ((p.setSlot _ _).slots j).begun
        rw [hcells]
        exact cells_update hslots (Or.inr rfl) (Or.inr hstoring.begun.symm) j hj
      · show p.slotIndex ((p.setSlot _ _).slots j).begun = j
        have hj : ((p.setSlot _ _).slots j).begun ≠ 0 := hj
        rw [hcells] at hj ⊢
        exact cells_at h.slotAt j hj (Or.inl rfl)
      · show c ≤ ((p.setSlot _ _).slots (p.slotIndex c)).begun
        rw [hcells]
        have hpublish : (p.slots (p.slotIndex cursor)).publish cursor =
            (p.slots (p.slotIndex cursor)).publish (p.slots (p.slotIndex cursor)).begun := by
          rw [hstoring.begun]
        refine Cell.Writes.le_update ?_ (h.placed c hpos hle)
        rw [hpublish]
        exact .publish hstoring.sequence
  | @cursor cursor hpc =>
      rw [hpc] at hstamps hslots hconfigs
      exact ⟨hslots, hconfigs, h.slotAt, h.configAt, h.placed, h.stamped, hstamps⟩

lemma new (capacity : ℕ) : (Page.new capacity).Settled :=
  ⟨fun _ _ => rfl, fun _ _ => rfl, fun _ h0 => absurd rfl h0, fun _ h0 => absurd rfl h0,
    fun _ hpos hle => absurd hle (Nat.not_le.mpr hpos), fun _ _ _ hlog => (nomatch hlog.2), rfl,
    rfl⟩

/-- `push` is called. -/
lemma push (h : p.Settled) (hidle : p.push = .idle) (e : PendingVideoRingEntry) :
    ({ p with push := .config e } : Page).Settled := by
  obtain ⟨hslots, hconfigs, hslotAt, hconfigAt, hplaced, hstamped, hstamps⟩ := h
  rw [hidle] at hslots hconfigs hstamps
  exact ⟨hslots, hconfigs, hslotAt, hconfigAt, hplaced, hstamped, hstamps⟩

end Settled

/-! ### Sequences of pushes -/

/-- The stores that are left of a push, at most. -/
def PushPc.left : PushPc → ℕ
  | .idle => 0
  | .config _ => 28
  | .configStore _ _ todo => todo.length + 19
  | .configCursor _ _ => 18
  | .slot _ _ => 17
  | .slotStore _ _ _ todo => todo.length + 2
  | .cursor _ => 1

/-- A push is called and runs to its end. -/
def pushEntry (p : Page) (e : PendingVideoRingEntry) : Page :=
  play Page.step p (.push e :: List.replicate 28 .store)

/-- The page after a sequence of pushes. -/
def pushAll (capacity : ℕ) (es : List PendingVideoRingEntry) : Page :=
  es.foldl pushEntry (new capacity)

lemma Stores.left (hs : p.Stores p') : PushPc.left p'.push < PushPc.left p.push := by
  cases hs with
  | repeats hpc _ | begins hpc _ | configWord hpc | configDone hpc | configCursor hpc | slot hpc
  | slotWord hpc | slotDone hpc | cursor hpc =>
      rw [hpc]
      simp [PushPc.left, beginConfig, ConfigField.all, SlotField.all]

/-- A push that is not over has a store to make. -/
lemma idle_of_pushStep (hs : p.pushStep = none) : p.push = .idle := by
  rw [pushStep] at hs
  cases hpc : p.push with
  | idle => rfl
  | config e =>
      rw [hpc] at hs
      cases hconfig : p.producerConfig with
      | none =>
          simp only [hconfig] at hs
          cases hs
      | some cached =>
          simp only [hconfig] at hs
          split_ifs at hs
  | configStore e generation todo =>
      rw [hpc] at hs
      cases todo with
      | nil => cases hs
      | cons f todo => cases hs
  | configCursor e generation =>
      rw [hpc] at hs
      cases hs
  | slot e generation =>
      rw [hpc] at hs
      cases hs
  | slotStore e generation cursor todo =>
      rw [hpc] at hs
      cases todo with
      | nil => cases hs
      | cons f todo => cases hs
  | cursor cursor =>
      rw [hpc] at hs
      cases hs

/-- **A page at rest**, to which these frames have been pushed. -/
structure Rests (p : Page) (es : List PendingVideoRingEntry) : Prop where
  producing : p.Producing
  settled : p.Settled
  idle : p.push = .idle
  entries : p.entries = es

/-- Enough stores end a push. -/
lemma rests_stores (k : ℕ) : ∀ {p : Page}, p.Producing → p.Settled → PushPc.left p.push ≤ k →
    Rests (play Page.step p (List.replicate k .store)) p.entered ∧
      (play Page.step p (List.replicate k .store)).slotCapacity = p.slotCapacity := by
  induction k with
  | zero =>
      intro p hp h hleft
      have hidle : p.push = .idle := by
        cases hpc : p.push with
        | idle => rfl
        | _ =>
            rw [hpc] at hleft
            simp [PushPc.left] at hleft
      refine ⟨⟨hp, h, hidle, ?_⟩, rfl⟩
      show p.entries = p.entered
      rw [Page.entries, entered, hidle]
      exact (List.append_nil _).symm
  | succ k ih =>
      intro p hp h hleft
      cases hs : p.pushStep with
      | none =>
          have hplay : play Page.step p (List.replicate (k + 1) .store) =
              play Page.step p (List.replicate k .store) := by
            rw [List.replicate_succ, play, List.foldl_cons, show p.step .store = none from hs]
            rfl
          rw [hplay]
          refine ih hp h ?_
          rw [idle_of_pushStep hs]
          exact Nat.zero_le _
      | some p' =>
          have hplay : play Page.step p (List.replicate (k + 1) .store) =
              play Page.step p' (List.replicate k .store) := by
            rw [List.replicate_succ, play, List.foldl_cons, show p.step .store = some p' from hs]
            rfl
          have hstores := stores_of_pushStep hs
          have hless := hstores.left
          obtain ⟨hentered, hcapacity⟩ := entered_store hs
          rw [hplay, ← hentered, ← hcapacity]
          exact ih (hp.pushStep hs).1 (h.store hp hstores) (by omega)

/-- One push more. -/
lemma Rests.pushEntry {es : List PendingVideoRingEntry} (h : p.Rests es)
    (e : PendingVideoRingEntry) : (p.pushEntry e).Rests (es ++ [e]) ∧
      (p.pushEntry e).slotCapacity = p.slotCapacity := by
  have hhere := h.producing.here
  rw [h.idle] at hhere
  have hproducing : ({ p with push := .config e } : Page).Producing :=
    ⟨hhere, h.producing.slots, h.producing.configs, h.producing.placed, h.producing.named,
      h.producing.cached⟩
  obtain ⟨hrests, hcapacity⟩ := rests_stores 28 hproducing (h.settled.push h.idle e) le_rfl
  have hplay : p.pushEntry e =
      play Page.step { p with push := .config e } (List.replicate 28 .store) := by
    rw [Page.pushEntry, play, List.foldl_cons, Page.step, if_pos h.idle]
    rfl
  have hentered : ({ p with push := .config e } : Page).entered = es ++ [e] := by
    rw [← h.entries]
    rfl
  rw [hplay, ← hentered]
  exact ⟨hrests, hcapacity⟩

/-- The cursor of the next push does not saturate, and passes the assertion behind it. -/
def Counts (p : Page) : Prop :=
  saturatingSucc 64 p.producerCursor = p.producerCursor + 1 ∧ p.producerCursor + 1 < 2 ^ 64 - 1

/-- **Every sequence of pushes brings the page to rest.** -/
lemma rests_pushAll (capacity : ℕ) (es : List PendingVideoRingEntry) :
    (pushAll capacity es).Rests es ∧
      (pushAll capacity es).slotCapacity = ringCapacityFor capacity := by
  induction es using List.reverseRecOn with
  | nil => exact ⟨⟨producing_new capacity, .new capacity, rfl, rfl⟩, rfl⟩
  | append_singleton es e ih =>
      obtain ⟨hrests, hcapacity⟩ := ih.1.pushEntry e
      have hall : pushAll capacity (es ++ [e]) = (pushAll capacity es).pushEntry e := by
        rw [pushAll, List.foldl_append]
        rfl
      rw [hall]
      exact ⟨hrests, hcapacity.trans ih.2⟩

/-! ### Reads of a page at rest -/

/-- `latest_cursor`. -/
def latestCursor (p : Page) : Option ℕ :=
  if 0 < p.producerCursor then some p.producerCursor else none

/-- `oldest_live_cursor`. -/
def oldestLiveCursor (p : Page) : Option ℕ :=
  if p.producerCursor = 0 then none
  else some (p.producerCursor - min p.producerCursor p.slotCapacity + 1)

/-- `read_slot_seqlock`; the sequence word is the same at both loads. -/
def readSlotSeqlock (p : Page) (cursor : ℕ) : Except VideoRingReadError FrameSlot :=
  let cell := p.slots (p.slotIndex cursor)
  if cell.sequence ≠ cursor then .error (.slotSequenceMismatch cursor cell.sequence cell.sequence)
  else .ok (.ofWords cell.words)

/-- `read_config_seqlock`; the sequence word is the same at both loads. -/
def readConfigSeqlock (p : Page) (generation : ℕ) : Except (ℕ × ℕ) StreamConfig :=
  if generation = 0 then .error (0, 0)
  else
    let cell := p.configs (configIndex generation)
    if cell.sequence ≠ generation then .error (cell.sequence, cell.sequence)
    else .ok (.ofWords cell.words)

/-- `read_entry_for_cursor`, when no store comes between its loads. -/
def readEntryForCursor (p : Page) (cursor : ℕ) : Except VideoRingReadError VideoRingEntry :=
  match p.latestCursor, p.oldestLiveCursor with
  | some latest, some oldest =>
      if latest < cursor then .error (.notPublished cursor latest)
      else if cursor < oldest then .error (.lapped cursor oldest latest)
      else match p.readSlotSeqlock cursor with
        | .error e => .error e
        | .ok slot =>
            match p.readConfigSeqlock slot.configGeneration with
            | .error (first, second) =>
                .error (.configOverwritten cursor slot.configGeneration first second)
            | .ok config => .ok (.fromParts cursor slot slot.configGeneration config)
  | _, _ => .error .empty

/-- `ring_snapshot`. -/
def ringSnapshot (p : Page) : List VideoRingEntry :=
  match p.oldestLiveCursor, p.latestCursor with
  | some oldest, some latest =>
      (List.range' oldest (latest + 1 - oldest)).filterMap fun cursor =>
        (p.readEntryForCursor cursor).toOption
  | _, _ => []

/-- `config_snapshot`: the configs, each with its generation. -/
def configSnapshot (p : Page) : List (ℕ × StreamConfig) :=
  let latest := p.configCursor
  if latest = 0 then []
  else
    let live := min latest configRingCapacity
    (List.range' (latest - live + 1) live).filterMap fun generation =>
      (p.readConfigSeqlock generation).toOption.map fun config => (generation, config)

/-! ### The loads of a read -/

/-- The reader is left alone and returns this. -/
def Returns (p : Page) (cursor : ℕ) (result : Except VideoRingReadError VideoRingEntry) : Prop :=
  ∃ k, (play Page.step p (List.replicate k .load)).read = .returned cursor result

lemma Returns.load {cursor : ℕ} {result : Except VideoRingReadError VideoRingEntry}
    (h : p'.Returns cursor result) (hs : p.readStep = some p') : p.Returns cursor result := by
  obtain ⟨k, hk⟩ := h
  refine ⟨k + 1, ?_⟩
  rw [List.replicate_succ, play, List.foldl_cons, show p.step .load = some p' from hs]
  exact hk

/-- The last load. -/
lemma Returns.last {cursor : ℕ} {result : Except VideoRingReadError VideoRingEntry}
    (hs : p.readStep = some { p with read := .returned cursor result }) :
    p.Returns cursor result := Returns.load ⟨0, rfl⟩ hs

/-- The words of a config are copied, and the generation is compared once more. -/
lemma returns_configCopy {cursor : ℕ} {slot : FrameSlot} (hpos : slot.configGeneration ≠ 0)
    (todo : List ConfigField) : ∀ {p : Page},
    p.read = .configCopy cursor slot (p.configs (configIndex slot.configGeneration)).sequence
      todo →
    (∀ f ∉ todo,
      p.configCopy f = (p.configs (configIndex slot.configGeneration)).words f) →
    p.Returns cursor
      (match p.readConfigSeqlock slot.configGeneration with
      | .error (first, second) =>
          .error (.configOverwritten cursor slot.configGeneration first second)
      | .ok config => .ok (.fromParts cursor slot slot.configGeneration config)) := by
  induction todo with
  | nil =>
      intro p hread hcopy
      have hwords : p.configCopy = (p.configs (configIndex slot.configGeneration)).words :=
        funext fun f => hcopy f List.not_mem_nil
      rw [readConfigSeqlock, if_neg hpos]
      by_cases hsame : (p.configs (configIndex slot.configGeneration)).sequence =
          slot.configGeneration
      · refine Returns.last ?_
        rw [readStep, hread]
        refine (if_neg (by simp [hsame])).trans ?_
        rw [if_neg (not_not.mpr hsame), hwords]
      · refine Returns.last ?_
        rw [readStep, hread]
        refine (if_pos (Or.inl hsame)).trans ?_
        rw [if_pos hsame]
  | cons f todo ih =>
      intro p hread hcopy
      refine Returns.load (ih (p := { p with
          configCopy := Function.update p.configCopy f
            ((p.configs (configIndex slot.configGeneration)).words f)
          read := .configCopy cursor slot
            (p.configs (configIndex slot.configGeneration)).sequence todo }) rfl ?_)
        (by rw [readStep, hread])
      intro g hg
      show Function.update p.configCopy f _ g = _
      rw [Function.update_apply]
      split_ifs with hgf
      · rw [hgf]
      · exact hcopy g (List.not_mem_cons_of_ne_of_not_mem hgf hg)

/-- The words of a slot are copied, and the sequence is compared once more. -/
lemma returns_slotCopy {cursor : ℕ} (todo : List SlotField) : ∀ {p : Page},
    p.read = .slotCopy cursor (p.slots (p.slotIndex cursor)).sequence todo →
    (∀ f ∉ todo, p.slotCopy f = (p.slots (p.slotIndex cursor)).words f) →
    p.Returns cursor
      (match p.readSlotSeqlock cursor with
      | .error e => .error e
      | .ok slot =>
          match p.readConfigSeqlock slot.configGeneration with
          | .error (first, second) =>
              .error (.configOverwritten cursor slot.configGeneration first second)
          | .ok config => .ok (.fromParts cursor slot slot.configGeneration config)) := by
  induction todo with
  | nil =>
      intro p hread hcopy
      have hwords : p.slotCopy = (p.slots (p.slotIndex cursor)).words :=
        funext fun f => hcopy f List.not_mem_nil
      rw [readSlotSeqlock]
      by_cases hsame : (p.slots (p.slotIndex cursor)).sequence = cursor
      · rw [if_neg (not_not.mpr hsame), ← hwords]
        generalize hslot : FrameSlot.ofWords p.slotCopy = slot
        have hload : p.readStep = some { p with read := .configFirst cursor slot } := by
          rw [readStep, hread, ← hslot]
          exact if_neg (by simp [hsame])
        refine Returns.load ?_ hload
        by_cases hpos : slot.configGeneration = 0
        · refine Returns.last ?_
          rw [readStep]
          refine (if_pos hpos).trans ?_
          have hnone : p.readConfigSeqlock 0 = .error (0, 0) := if_pos rfl
          simp only [hpos, hnone]
        · refine Returns.load (returns_configCopy hpos ConfigField.all (p := { p with
            read := .configCopy cursor slot
              (p.configs (configIndex slot.configGeneration)).sequence ConfigField.all }) rfl
            fun f hf => absurd f.mem_all hf) ?_
          rw [readStep]
          exact if_neg hpos
      · refine Returns.last ?_
        rw [readStep, hread]
        refine (if_pos (Or.inl hsame)).trans ?_
        rw [if_pos hsame]
  | cons f todo ih =>
      intro p hread hcopy
      refine Returns.load (ih (p := { p with
          slotCopy := Function.update p.slotCopy f ((p.slots (p.slotIndex cursor)).words f)
          read := .slotCopy cursor (p.slots (p.slotIndex cursor)).sequence todo }) rfl ?_)
        (by rw [readStep, hread])
      intro g hg
      show Function.update p.slotCopy f _ g = (p.slots (p.slotIndex cursor)).words g
      rw [Function.update_apply]
      split_ifs with hgf
      · rw [hgf]
      · exact hcopy g (List.not_mem_cons_of_ne_of_not_mem hgf hg)

/-- **The loads of a read that is left alone** return what `readEntryForCursor` says. -/
lemma returns_readEntryForCursor (p : Page) (cursor : ℕ) :
    ({ p with read := .latest cursor } : Page).Returns cursor (p.readEntryForCursor cursor) := by
  rw [readEntryForCursor, latestCursor, oldestLiveCursor]
  rcases Nat.eq_zero_or_pos p.producerCursor with hzero | hpos
  · rw [if_neg (by omega)]
    refine Returns.last ?_
    rw [readStep]
    exact if_pos hzero
  rw [if_pos hpos, if_neg (by omega)]
  dsimp only
  by_cases hbeyond : p.producerCursor < cursor
  · rw [if_pos hbeyond]
    refine Returns.last ?_
    rw [readStep]
    exact (if_neg hpos.ne').trans (if_pos hbeyond)
  rw [if_neg hbeyond]
  have hlatest : ({ p with read := .latest cursor } : Page).readStep =
      some { p with read := .oldest cursor p.producerCursor } := by
    rw [readStep]
    exact (if_neg hpos.ne').trans (if_neg hbeyond)
  by_cases hlapped : cursor < p.producerCursor - min p.producerCursor p.slotCapacity + 1
  · rw [if_pos hlapped]
    refine (Returns.last ?_).load hlatest
    rw [readStep]
    exact if_pos hlapped
  rw [if_neg hlapped]
  have holdest : ({ p with read := .oldest cursor p.producerCursor } : Page).readStep =
      some { p with read := .slotFirst cursor } := by
    rw [readStep]
    exact if_neg hlapped
  have hfirst : ({ p with read := .slotFirst cursor } : Page).readStep =
      some { p with
        read := .slotCopy cursor (p.slots (p.slotIndex cursor)).sequence SlotField.all } := by
    rw [readStep]
    rfl
  refine Returns.load (Returns.load (Returns.load ?_ hfirst) holdest) hlatest
  exact returns_slotCopy SlotField.all rfl fun f hf => absurd f.mem_all hf

/-- Two versions of one place in a ring are a lap apart. -/
lemma eq_of_mod {capacity a b : ℕ} (ha : a ≤ b) (hb : b < a + capacity)
    (hmod : a % capacity = b % capacity) : a = b := by
  obtain ⟨d, rfl⟩ := Nat.exists_eq_add_of_le ha
  have hd : d % capacity = 0 := by
    have hsub := Nat.sub_mod_eq_zero_of_mod_eq hmod.symm
    rwa [Nat.add_sub_cancel_left] at hsub
  rw [Nat.mod_eq_of_lt (by omega)] at hd
  omega

lemma slotIndex_eq_mod (h : p.slotCapacity.isPowerOfTwo) (cursor : ℕ) :
    p.slotIndex cursor = (cursor - 1) % p.slotCapacity := by
  obtain ⟨k, hk⟩ := h
  rw [slotIndex, hk, Nat.and_two_pow_sub_one_eq_mod]

lemma configIndex_eq_mod (generation : ℕ) :
    configIndex generation = generation % configRingCapacity := by
  show generation &&& (2 ^ 2 - 1) = generation % 2 ^ 2
  exact Nat.and_two_pow_sub_one_eq_mod ..

namespace Rests

variable {es : List PendingVideoRingEntry}

lemma counts (h : p.Rests es) : p.producerCursor = es.length ∧
    p.configCursor = (configsOf es).length ∧ p.bodies = configsOf es ∧
    p.pushes.length = es.length := by
  have hhere := h.producing.here
  have hstamps := h.settled.stamps
  rw [h.idle] at hhere hstamps
  obtain ⟨hbodies, hpushes⟩ := hhere
  have hlength : p.pushes.length = es.length := by
    rw [← h.entries, Page.entries, List.length_map]
  have hall : p.bodies = configsOf es := by
    rw [← h.entries]
    exact hstamps.1
  exact ⟨hpushes.symm.trans hlength, hbodies.symm.trans (congrArg _ hall), hall, hlength⟩

/-- The frame that was pushed at a cursor. -/
lemma logged (h : p.Rests es) {c : ℕ} {e : PendingVideoRingEntry} (hpos : 0 < c)
    (he : es[c - 1]? = some e) : Logged p.pushes c (e, generationAt es c) := by
  rw [← h.entries, Page.entries, List.getElem?_map] at he
  obtain ⟨⟨e', generation⟩, hlog, rfl⟩ := Option.map_eq_some_iff.mp he
  have hlogged : Logged p.pushes c (e', generation) := ⟨hpos, hlog⟩
  have hstamped := h.settled.stamped c e' generation hlogged
  rw [h.entries] at hstamped
  exact hstamped ▸ hlogged

/-- **A slot of the window holds its frame.** -/
lemma readSlot (h : p.Rests es) (hcap : p.slotCapacity.isPowerOfTwo) {c : ℕ} (hpos : 0 < c)
    {e : PendingVideoRingEntry} (he : es[c - 1]? = some e)
    (hlive : es.length < c + p.slotCapacity) :
    p.readSlotSeqlock c = .ok (e.slot (generationAt es c)) := by
  obtain ⟨-, -, -, hlength⟩ := h.counts
  have hlog := h.logged hpos he
  have hle : c ≤ p.pushes.length := hlog.le
  have hplaced := h.settled.placed c hpos hle
  obtain ⟨hsound, hbegun⟩ := h.producing.slots (p.slotIndex c)
  have hsettled : (p.slots (p.slotIndex c)).sequence = (p.slots (p.slotIndex c)).begun :=
    h.settled.slots _ (by rw [h.idle]; exact fun h0 => (nomatch h0))
  -- the last version in this place is in the window too
  have hsame : c = (p.slots (p.slotIndex c)).begun := by
    have hat := h.settled.slotAt (p.slotIndex c) (by omega)
    generalize (p.slots (p.slotIndex c)).begun = begun at hat hplaced hbegun
    rw [slotIndex_eq_mod hcap, slotIndex_eq_mod hcap] at hat
    have hpred := eq_of_mod (by omega) (by omega) hat.symm
    omega
  have hsequence : (p.slots (p.slotIndex c)).sequence = c := hsettled.trans hsame.symm
  obtain ⟨-, e', generation, hlog', hwords⟩ := hsound (by rw [hsequence]; omega)
  rw [← hsame] at hlog'
  cases hlog'.unique hlog
  rw [readSlotSeqlock, if_neg (not_not.mpr hsequence)]
  exact congrArg _ (FrameSlot.ofWords_eq hwords)

/-- **A config is read until four newer ones have been made.** -/
lemma readConfig (h : p.Rests es) {generation : ℕ} (hpos : 0 < generation)
    {body : StreamConfig} (hbody : (configsOf es)[generation - 1]? = some body) :
    if (configsOf es).length < generation + configRingCapacity then
      p.readConfigSeqlock generation = .ok body
    else ∃ other, p.readConfigSeqlock generation = .error (other, other) := by
  obtain ⟨-, hcursor, hbodies, -⟩ := h.counts
  have hle : generation ≤ (configsOf es).length := by
    obtain ⟨hlt, -⟩ := List.getElem?_eq_some_iff.mp hbody
    omega
  obtain ⟨hsound, hbegun⟩ := h.producing.configs (configIndex generation)
  have hsettled : (p.configs (configIndex generation)).sequence =
      (p.configs (configIndex generation)).begun :=
    h.settled.configs _ (by rw [h.idle]; exact fun h0 => (nomatch h0))
  rw [hbodies] at hbegun
  have hring : configRingCapacity = 4 := rfl
  have hread : p.readConfigSeqlock generation =
      if (p.configs (configIndex generation)).sequence ≠ generation then
        .error ((p.configs (configIndex generation)).sequence,
          (p.configs (configIndex generation)).sequence)
      else .ok (.ofWords (p.configs (configIndex generation)).words) := by
    rw [readConfigSeqlock, if_neg (by omega)]
  rw [hread]
  split_ifs with hlive hsequence hsequence
  · refine absurd ?_ hsequence
    have hplaced := h.producing.placed generation hpos (by omega)
    have hat := h.settled.configAt (configIndex generation) (by omega)
    rw [hsettled]
    generalize (p.configs (configIndex generation)).begun = begun at hat hplaced hbegun ⊢
    rw [configIndex_eq_mod, configIndex_eq_mod] at hat
    exact (eq_of_mod hplaced (by omega) hat.symm).symm
  · have hbegan : (p.configs (configIndex generation)).begun = generation :=
      hsettled.symm.trans (not_not.mp hsequence)
    obtain ⟨-, body', hlog, hwords⟩ := hsound (by omega)
    rw [hbegan, hbodies] at hlog
    cases hlog.unique ⟨hpos, hbody⟩
    exact congrArg _ (StreamConfig.ofWords_eq hwords)
  · exact ⟨_, rfl⟩
  · -- the place has been taken by a newer config
    have hplaced := h.producing.placed (generation + configRingCapacity) (by omega) (by omega)
    have hindex : configIndex (generation + configRingCapacity) = configIndex generation := by
      rw [configIndex_eq_mod, configIndex_eq_mod, Nat.add_mod_right]
    rw [hindex] at hplaced
    omega

/-- The config of a frame is one of those that have been made. -/
lemma config (h : p.Rests es) {c : ℕ} {e : PendingVideoRingEntry} (hpos : 0 < c)
    (he : es[c - 1]? = some e) : (configsOf es)[generationAt es c - 1]? = some e.body := by
  obtain ⟨-, -, hbodies, -⟩ := h.counts
  have hlog := h.logged hpos he
  have hnamed := h.producing.named _ (List.mem_of_getElem? hlog.2)
  rw [← hbodies]
  exact hnamed.2.2

/-- **Outside of the window** a read says on which side the cursor is. -/
lemma read_outside (h : p.Rests es) (c : ℕ) :
    (es.length = 0 → p.readEntryForCursor c = .error .empty) ∧
    (0 < es.length → es.length < c →
      p.readEntryForCursor c = .error (.notPublished c es.length)) ∧
    (0 < es.length → c ≤ es.length → c < es.length - min es.length p.slotCapacity + 1 →
      p.readEntryForCursor c =
        .error (.lapped c (es.length - min es.length p.slotCapacity + 1) es.length)) := by
  obtain ⟨hcursor, -, -, -⟩ := h.counts
  rw [readEntryForCursor, latestCursor, oldestLiveCursor, hcursor]
  refine ⟨fun hzero => ?_, fun hpos hbeyond => ?_, fun hpos hle hlapped => ?_⟩
  · rw [if_neg (by omega)]
  · rw [if_pos hpos, if_neg (by omega)]
    exact if_pos hbeyond
  · rw [if_pos hpos, if_neg (by omega)]
    exact (if_neg (by omega)).trans (if_pos hlapped)

/-- **Inside of the window** a read finds the frame, unless its config is gone. -/
lemma read_inside (h : p.Rests es) (hcap : p.slotCapacity.isPowerOfTwo)
    (hconfigs : (configsOf es).length < 2 ^ 32) {c : ℕ} (hle : c ≤ es.length)
    (hlive : es.length - min es.length p.slotCapacity + 1 ≤ c) :
    ∃ e, es[c - 1]? = some e ∧
      if (configsOf es).length < generationAt es c + configRingCapacity then
        p.readEntryForCursor c = .ok (e.entry c (generationAt es c))
      else ∃ other, p.readEntryForCursor c =
        .error (.configOverwritten c (generationAt es c) other other) := by
  have hpos : 0 < c := by omega
  have hgeneration := generationAt_pos hpos hle
  have hbound := generationAt_le es c
  have he : es[c - 1]? = some es[c - 1] := List.getElem?_eq_getElem (by omega)
  generalize es[c - 1] = e at he
  refine ⟨e, he, ?_⟩
  obtain ⟨hcursor, -, -, -⟩ := h.counts
  have hslot := h.readSlot hcap hpos he (by omega)
  have hconfig := h.readConfig hgeneration (h.config hpos he)
  have hword : (e.slot (generationAt es c)).configGeneration = generationAt es c :=
    Nat.mod_eq_of_lt (by omega)
  have hread : p.readEntryForCursor c =
      match p.readConfigSeqlock (generationAt es c) with
      | .error (first, second) =>
          .error (.configOverwritten c (generationAt es c) first second)
      | .ok config =>
          .ok (.fromParts c (e.slot (generationAt es c)) (generationAt es c) config) := by
    rw [readEntryForCursor, latestCursor, oldestLiveCursor, hcursor, if_pos (by omega),
      if_neg (by omega), hslot]
    refine ((if_neg (by omega)).trans (if_neg (by omega))).trans ?_
    dsimp only
    rw [hword]
  rw [hread]
  split_ifs at hconfig ⊢ with hnew
  · rw [hconfig]
    exact congrArg _ (e.fromParts_slot_body c (generationAt es c) (generationAt es c))
  · obtain ⟨other, hother⟩ := hconfig
    exact ⟨other, by rw [hother]⟩

/-- **How a read ends**, case by case. -/
lemma read_cases (h : p.Rests es) (hcap : p.slotCapacity.isPowerOfTwo)
    (hconfigs : (configsOf es).length < 2 ^ 32) (c : ℕ) :
    (es.length = 0 ∧ p.readEntryForCursor c = .error .empty) ∨
    ((0 < es.length ∧ es.length < c) ∧
      p.readEntryForCursor c = .error (.notPublished c es.length)) ∨
    ((0 < es.length ∧ c < es.length - min es.length p.slotCapacity + 1) ∧
      p.readEntryForCursor c =
        .error (.lapped c (es.length - min es.length p.slotCapacity + 1) es.length)) ∨
    (es.length - min es.length p.slotCapacity + 1 ≤ c ∧ c ≤ es.length ∧
      ∃ e, es[c - 1]? = some e ∧
        ((configsOf es).length - generationAt es c < 4 ∧
            p.readEntryForCursor c = .ok (e.entry c (generationAt es c)) ∨
          4 ≤ (configsOf es).length - generationAt es c ∧ ∃ other, p.readEntryForCursor c =
            .error (.configOverwritten c (generationAt es c) other other))) := by
  obtain ⟨hempty, hbeyond, hlapped⟩ := h.read_outside c
  rcases Nat.eq_zero_or_pos es.length with hzero | hpos
  · exact Or.inl ⟨hzero, hempty hzero⟩
  rcases Nat.lt_or_ge es.length c with hgt | hle
  · exact Or.inr (Or.inl ⟨⟨hpos, hgt⟩, hbeyond hpos hgt⟩)
  rcases Nat.lt_or_ge c (es.length - min es.length p.slotCapacity + 1) with hlt | hlive
  · exact Or.inr (Or.inr (Or.inl ⟨⟨hpos, hlt⟩, hlapped hpos hle hlt⟩))
  obtain ⟨e, he, hread⟩ := h.read_inside hcap hconfigs hle hlive
  refine Or.inr (Or.inr (Or.inr ⟨hlive, hle, e, he, ?_⟩))
  have hbound := generationAt_le es c
  have hring : configRingCapacity = 4 := rfl
  split_ifs at hread with hnew
  · exact Or.inl ⟨by omega, hread⟩
  · exact Or.inr ⟨by omega, hread⟩

/-- The snapshot of the ring leaves out the reads that fail. -/
lemma ringSnapshot_eq (h : p.Rests es) : p.ringSnapshot =
    (List.range' 1 es.length).filterMap fun c => (p.readEntryForCursor c).toOption := by
  obtain ⟨hcursor, -, -, -⟩ := h.counts
  rw [ringSnapshot, oldestLiveCursor, latestCursor, hcursor]
  rcases Nat.eq_zero_or_pos es.length with hzero | hpos
  · rw [if_pos hzero, hzero]
    rfl
  rw [if_neg (by omega), if_pos hpos]
  -- what has been lapped is not read
  have hsplit : List.range' 1 es.length =
      List.range' 1 (es.length - min es.length p.slotCapacity) ++
        List.range' (es.length - min es.length p.slotCapacity + 1)
          (es.length + 1 - (es.length - min es.length p.slotCapacity + 1)) := by
    rw [Nat.add_comm _ 1, List.range'_append_1]
    congr 1
    omega
  have hlapped : (List.range' 1 (es.length - min es.length p.slotCapacity)).filterMap
      (fun c => (p.readEntryForCursor c).toOption) = [] := by
    rw [List.filterMap_eq_nil_iff]
    intro c hc
    have hmem := List.mem_range'_1.mp hc
    rw [(h.read_outside c).2.2 hpos (by omega) (by omega)]
    rfl
  rw [hsplit, List.filterMap_append, hlapped, List.nil_append]

/-- The snapshot of the configs holds the last ones, with their generations. -/
lemma configSnapshot_eq (h : p.Rests es) : p.configSnapshot =
    ((List.range' 1 (configsOf es).length).zip (configsOf es)).drop
      ((configsOf es).length - min 4 (configsOf es).length) := by
  obtain ⟨-, hcursor, -, -⟩ := h.counts
  have hring : configRingCapacity = 4 := rfl
  rw [configSnapshot, hcursor]
  rcases Nat.eq_zero_or_pos (configsOf es).length with hzero | hpos
  · rw [if_pos hzero, hzero]
    rfl
  rw [if_neg (by omega)]
  -- one config after the other, from the oldest that is kept
  have hfrom : ∀ m k, k + m = (configsOf es).length → m ≤ 4 →
      ((List.range' (k + 1) m).filterMap fun generation =>
        (p.readConfigSeqlock generation).toOption.map fun config => (generation, config)) =
      ((List.range' 1 (configsOf es).length).zip (configsOf es)).drop k := by
    intro m
    induction m with
    | zero =>
        intro k hk _
        rw [List.drop_of_length_le (by simp; omega)]
        rfl
    | succ m ih =>
        intro k hk hm
        have hlt : k < (configsOf es).length := by omega
        have hread := h.readConfig (Nat.succ_pos k) (List.getElem?_eq_getElem hlt)
        rw [if_pos (by omega)] at hread
        have hzip : k < ((List.range' 1 (configsOf es).length).zip (configsOf es)).length := by
          rw [List.length_zip, List.length_range', min_self]
          exact hlt
        rw [List.range'_succ, List.filterMap_cons_some (by rw [hread]; rfl),
          ih (k + 1) (by omega) (by omega), List.drop_eq_getElem_cons hzip, List.getElem_zip,
          List.getElem_range'_1, Nat.add_comm 1 k]
  rw [Nat.min_comm 4]
  exact hfrom _ _ (by omega) (Nat.min_le_right (configsOf es).length 4)

end Rests

end Page

lemma isPowerOfTwo_ringCapacityFor (capacity : ℕ) : (ringCapacityFor capacity).isPowerOfTwo :=
  Nat.isPowerOfTwo_nextPowerOfTwo _

/-- **The window is exact.** On a page of any capacity to which fewer than 2⁶⁴ - 1 frames have
been pushed, with fewer than 2³² configs and with no push in progress: no push has come to the
end of the cursors; a read of a cursor finds the page empty, the cursor not published, lapped,
or in the window with its config gone, exactly when that is so, and otherwise it returns the
frame with that number; the snapshot of the ring is what these reads return, and that of the
configs holds the last four. -/
theorem window_exact (capacity : ℕ) (es : List PendingVideoRingEntry)
    (hpushes : es.length < 2 ^ 64 - 1) (hconfigs : (configsOf es).length < 2 ^ 32) :
    (∀ n, n < es.length → (Page.pushAll capacity (es.take n)).Counts) ∧
    (∀ c,
      let read := (Page.pushAll capacity es).readEntryForCursor c
      let oldest := es.length - min es.length (ringCapacityFor capacity) + 1
      let generations := (configsOf es).length
      (read = .error .empty ↔ es.length = 0) ∧
      ((∃ latest, read = .error (.notPublished c latest)) ↔ 0 < es.length ∧ es.length < c) ∧
      ((∃ first latest, read = .error (.lapped c first latest)) ↔ 0 < es.length ∧ c < oldest) ∧
      ((∃ generation first second,
          read = .error (.configOverwritten c generation first second)) ↔
        (oldest ≤ c ∧ c ≤ es.length) ∧ 4 ≤ generations - generationAt es c) ∧
      (∀ entry, read = .ok entry ↔
        (oldest ≤ c ∧ c ≤ es.length) ∧ generations - generationAt es c < 4 ∧
          ∃ e, es[c - 1]? = some e ∧ entry = e.entry c (generationAt es c))) ∧
    (Page.pushAll capacity es).ringSnapshot =
      ((List.range' 1 es.length).filterMap fun c =>
        ((Page.pushAll capacity es).readEntryForCursor c).toOption) ∧
    (Page.pushAll capacity es).configSnapshot =
      ((List.range' 1 (configsOf es).length).zip (configsOf es)).drop
        ((configsOf es).length - min 4 (configsOf es).length) := by
  refine ⟨fun n hn => ?_, ?_⟩
  · obtain ⟨hcursor, -⟩ := (Page.rests_pushAll capacity (es.take n)).1.counts
    rw [List.length_take, Nat.min_eq_left hn.le] at hcursor
    rw [Page.Counts, hcursor]
    exact ⟨saturatingSucc_of_lt (by omega), by omega⟩
  obtain ⟨hrests, hcapacity⟩ := Page.rests_pushAll capacity es
  generalize Page.pushAll capacity es = p at hrests hcapacity ⊢
  refine ⟨fun c => ?_, hrests.ringSnapshot_eq, hrests.configSnapshot_eq⟩
  have hcases := hrests.read_cases (hcapacity ▸ isPowerOfTwo_ringCapacityFor capacity) hconfigs c
  rw [hcapacity] at hcases
  dsimp only
  rcases hcases with ⟨hzero, hread⟩ | ⟨hwhere, hread⟩ | ⟨hwhere, hread⟩ |
    ⟨hlive, hle, e, he, ⟨hnew, hread⟩ | ⟨hold, other, hread⟩⟩ <;> rw [hread]
  · refine ⟨iff_of_true rfl hzero, iff_of_false (by simp) (by omega),
      iff_of_false (by simp) (by omega), iff_of_false (by simp) (by omega), fun entry => ?_⟩
    refine iff_of_false (by simp) fun hwindow => ?_
    omega
  · refine ⟨iff_of_false (by simp) (by omega), iff_of_true ⟨_, rfl⟩ hwhere,
      iff_of_false (by simp) (by omega), iff_of_false (by simp) (by omega), fun entry => ?_⟩
    refine iff_of_false (by simp) fun hwindow => ?_
    omega
  · refine ⟨iff_of_false (by simp) (by omega), iff_of_false (by simp) (by omega),
      iff_of_true ⟨_, _, rfl⟩ hwhere, iff_of_false (by simp) (by omega), fun entry => ?_⟩
    refine iff_of_false (by simp) fun hwindow => ?_
    omega
  · refine ⟨iff_of_false (by simp) (by omega), iff_of_false (by simp) (by omega),
      iff_of_false (by simp) (by omega), iff_of_false (by simp) (by omega), fun entry => ?_⟩
    constructor
    · intro hentry
      exact ⟨⟨hlive, hle⟩, hnew, e, he, (Except.ok.inj hentry).symm⟩
    · rintro ⟨-, -, e', he', rfl⟩
      cases he.symm.trans he'
      rfl
  · refine ⟨iff_of_false (by simp) (by omega), iff_of_false (by simp) (by omega),
      iff_of_false (by simp) (by omega), iff_of_true ⟨_, _, _, rfl⟩ ⟨⟨hlive, hle⟩, hold⟩,
      fun entry => ?_⟩
    refine iff_of_false (by simp) fun hwindow => ?_
    omega

/-- Three frames, the last of another stream. -/
def threeFrames : List PendingVideoRingEntry := [sample 1 64, sample 2 64, sample 3 32]

/-- On a page of two slots the first of three frames has been lapped. -/
theorem window_exact_three :
    (∃ first latest,
      (Page.pushAll 2 threeFrames).readEntryForCursor 1 = .error (.lapped 1 first latest)) ∧
    (Page.pushAll 2 threeFrames).readEntryForCursor 2 = .ok ((sample 2 64).entry 2 1) := by
  have hexact := (window_exact 2 threeFrames (by decide) (by decide)).2.1
  obtain ⟨-, -, hlapped, -, -⟩ := hexact 1
  obtain ⟨-, -, -, -, hok⟩ := hexact 2
  exact ⟨hlapped.mpr (by decide +kernel),
    (hok _).mpr ⟨by decide +kernel, by decide, sample 2 64, rfl, rfl⟩⟩

/-- Nothing is lapped on an empty page, although no cursor is in its window. -/
theorem lapped_empty : ¬ ∀ capacity es, es.length < 2 ^ 64 - 1 →
    (configsOf es).length < 2 ^ 32 → ∀ c,
    ((∃ first latest,
        (Page.pushAll capacity es).readEntryForCursor c = .error (.lapped c first latest)) ↔
      c < es.length - min es.length (ringCapacityFor capacity) + 1) := by
  intro hclaim
  obtain ⟨first, latest, hlapped⟩ := (hclaim 1 [] (by decide) (by decide) 0).mpr (by decide)
  cases hlapped

end Jackstay.Video
