import Jackstay.Video.ControlPage

/-!
What a reader of the control page gets.

The two sequence words of a read are validated one after the other. The slot names its
config by 32 bits only, so that the second validation may compare with the generation of
another config; but a config that is 2³² generations older has been overwritten before the
slot was written, in the same place of the ring, and its number does not come back.

* `Producing`: the pages that the producer leaves behind, store by store.
* `Reading`: what the reader knows, load by load.
* `published_read`: a read that succeeds returns the entry of the push it asked for.
-/

namespace Jackstay.Video

open Seqlock Transition

/-- The words of version `n` of the slots. -/
def SlotWritten (pushes : List (PendingVideoRingEntry × ℕ)) (n : ℕ) (w : SlotField → ℕ) : Prop :=
  ∃ e generation, Logged pushes n (e, generation) ∧
    ∀ f ∈ SlotField.all, w f = (e.slot generation).words f

/-- The words of version `n` of the configs. -/
def ConfigWritten (bodies : List StreamConfig) (n : ℕ) (w : ConfigField → ℕ) : Prop :=
  ∃ body, Logged bodies n body ∧ ∀ f ∈ ConfigField.all, w f = body.words f

namespace Page

/-- The generation is published, and it holds the stream values of the entry. -/
def Named (p : Page) (body : StreamConfig) (generation : ℕ) : Prop :=
  generation ≤ p.configCursor ∧ Logged p.bodies generation body

/-- The producer is at this point of `push`. -/
def Here (p : Page) : PushPc → Prop
  | .idle => p.bodies.length = p.configCursor ∧ p.pushes.length = p.producerCursor
  | .config _ => p.bodies.length = p.configCursor ∧ p.pushes.length = p.producerCursor
  | .configStore e generation todo =>
      (p.bodies.length = generation ∧ p.pushes.length = p.producerCursor) ∧
        generation = p.configCursor + 1 ∧ Logged p.bodies generation e.body ∧
        ∃ done, ConfigField.all = done ++ todo ∧
          (p.configs (configIndex generation)).Storing generation e.body.words done
  | .configCursor e generation =>
      (p.bodies.length = generation ∧ p.pushes.length = p.producerCursor) ∧
        generation = p.configCursor + 1 ∧ Logged p.bodies generation e.body ∧
        (p.configs (configIndex generation)).begun = generation
  | .slot e generation =>
      (p.bodies.length = p.configCursor ∧ p.pushes.length = p.producerCursor) ∧
        p.Named e.body generation
  | .slotStore e generation cursor todo =>
      (p.bodies.length = p.configCursor ∧ p.pushes.length = cursor) ∧
        cursor = p.producerCursor + 1 ∧ Logged p.pushes cursor (e, generation) ∧
        ∃ done, SlotField.all = done ++ todo ∧
          (p.slots (p.slotIndex cursor)).Storing cursor (e.slot generation).words done
  | .cursor cursor =>
      (p.bodies.length = p.configCursor ∧ p.pushes.length = cursor) ∧
        cursor = p.producerCursor + 1

/-- **The invariant of the producer.** -/
structure Producing (p : Page) : Prop where
  here : p.Here p.push
  slots : ∀ k, (p.slots k).Sound (SlotWritten p.pushes) ∧ (p.slots k).begun ≤ p.pushes.length
  configs : ∀ k, (p.configs k).Sound (ConfigWritten p.bodies) ∧
    (p.configs k).begun ≤ p.bodies.length
  /-- a published config has been written where it belongs -/
  placed : ∀ generation, 0 < generation → generation ≤ p.configCursor →
    generation ≤ (p.configs (configIndex generation)).begun
  named : ∀ x ∈ p.pushes, p.Named x.1.body x.2
  cached : ∀ generation body, p.producerConfig = some (generation, body) →
    p.Named body generation

/-- **What a store leaves to the reader.** -/
structure Advances (p p' : Page) : Prop where
  slots : p'.slots = p.slots ∨
    ∃ k c, (p.slots k).Writes c ∧ p'.slots = Function.update p.slots k c
  configs : p'.configs = p.configs ∨
    ∃ k c, (p.configs k).Writes c ∧ p'.configs = Function.update p.configs k c
  pushes : ∃ more, p'.pushes = p.pushes ++ more
  slotCapacity : p'.slotCapacity = p.slotCapacity
  read : p'.read = p.read
  slotCopy : p'.slotCopy = p.slotCopy
  configCopy : p'.configCopy = p.configCopy

variable {p p' : Page}

lemma Named.mono {body : StreamConfig} {generation : ℕ} (h : p.Named body generation)
    (hcursor : p.configCursor ≤ p'.configCursor) {more : List StreamConfig}
    (hbodies : p'.bodies = p.bodies ++ more) : p'.Named body generation := by
  refine ⟨h.1.trans hcursor, ?_⟩
  rw [hbodies]
  exact h.2.append more

lemma SlotWritten.mono {pushes more : List (PendingVideoRingEntry × ℕ)} {n : ℕ}
    {w : SlotField → ℕ} (h : SlotWritten pushes n w) : SlotWritten (pushes ++ more) n w := by
  obtain ⟨e, generation, hlog, hw⟩ := h
  exact ⟨e, generation, hlog.append more, hw⟩

lemma ConfigWritten.mono {bodies more : List StreamConfig} {n : ℕ}
    {w : ConfigField → ℕ} (h : ConfigWritten bodies n w) : ConfigWritten (bodies ++ more) n w := by
  obtain ⟨body, hlog, hw⟩ := h
  exact ⟨body, hlog.append more, hw⟩

/-! ### The producer -/

/-- A store to a config of the ring. -/
lemma Producing.setConfig (h : p.Producing) {k : ℕ} {c : Cell ConfigField ℕ}
    (hw : (p.configs k).Writes c) {more : List StreamConfig}
    (hbodies : p'.bodies = p.bodies ++ more)
    (hp : p' = { p.setConfig k c with bodies := p'.bodies, push := p'.push })
    (hsound : c.Sound (ConfigWritten p'.bodies)) (hbegun : c.begun ≤ p'.bodies.length)
    (hhere : p'.Here p'.push) : p'.Producing ∧ p.Advances p' := by
  have hconfigs : p'.configs = Function.update p.configs k c := by
    rw [hp]
    exact p.configs_setConfig k c
  have hcursor : p'.configCursor = p.configCursor := by rw [hp, Page.setConfig]
  have hpushes : p'.pushes = p.pushes := by rw [hp, Page.setConfig]
  have hslots : p'.slots = p.slots := by rw [hp, Page.setConfig]
  constructor
  · refine ⟨hhere, ?_, ?_, ?_, ?_, ?_⟩
    · rw [hslots, hpushes]
      exact h.slots
    · rw [hconfigs]
      refine Cell.forall_update
        (P := fun x => x.Sound (ConfigWritten p'.bodies) ∧ x.begun ≤ _) ?_ k ⟨hsound, hbegun⟩
      intro j
      obtain ⟨hj, hle⟩ := h.configs j
      rw [hbodies, List.length_append]
      exact ⟨hj.mono fun w hwritten => ConfigWritten.mono hwritten, by omega⟩
    · intro generation hpos hle
      rw [hconfigs]
      exact hw.le_update (h.placed generation hpos (hcursor ▸ hle))
    · intro x hx
      rw [hpushes] at hx
      exact (h.named x hx).mono hcursor.ge hbodies
    · intro generation body hcached
      have hcached : p.producerConfig = some (generation, body) := by
        rw [hp] at hcached
        exact hcached
      exact (h.cached generation body hcached).mono hcursor.ge hbodies
  · refine ⟨Or.inl hslots, Or.inr ⟨k, c, hw, hconfigs⟩, ⟨[], ?_⟩, ?_, ?_, ?_, ?_⟩
    · rw [hpushes, List.append_nil]
    all_goals rw [hp, Page.setConfig]

/-- A store to a slot of the ring. -/
lemma Producing.setSlot (h : p.Producing) {k : ℕ} {c : Cell SlotField ℕ}
    (hw : (p.slots k).Writes c) {l : List (PendingVideoRingEntry × ℕ)}
    (hl : ∀ x ∈ l, p.Named x.1.body x.2) (hpushes : p'.pushes = p.pushes ++ l)
    (hp : p' = { p.setSlot k c with pushes := p'.pushes, push := p'.push })
    (hsound : c.Sound (SlotWritten p'.pushes)) (hbegun : c.begun ≤ p'.pushes.length)
    (hhere : p'.Here p'.push) : p'.Producing ∧ p.Advances p' := by
  have hslots : p'.slots = Function.update p.slots k c := by
    rw [hp]
    exact p.slots_setSlot k c
  have hcursor : p'.configCursor = p.configCursor := by rw [hp, Page.setSlot]
  have hbodies : p'.bodies = p.bodies := by rw [hp, Page.setSlot]
  have hconfigs : p'.configs = p.configs := by rw [hp, Page.setSlot]
  have hmono : ∀ body generation, p.Named body generation → p'.Named body generation := by
    intro body generation hnamed
    exact hnamed.mono hcursor.ge (hbodies.trans (List.append_nil _).symm)
  constructor
  · refine ⟨hhere, ?_, ?_, ?_, ?_, ?_⟩
    · rw [hslots]
      refine Cell.forall_update
        (P := fun x => x.Sound (SlotWritten p'.pushes) ∧ x.begun ≤ _) ?_ k ⟨hsound, hbegun⟩
      intro j
      obtain ⟨hj, hle⟩ := h.slots j
      rw [hpushes, List.length_append]
      exact ⟨hj.mono fun w hwritten => SlotWritten.mono hwritten, by omega⟩
    · rw [hconfigs, hbodies]
      exact h.configs
    · rw [hconfigs, hcursor]
      exact h.placed
    · intro x hx
      rw [hpushes] at hx
      rcases List.mem_append.mp hx with hx | hx
      · exact hmono _ _ (h.named x hx)
      · exact hmono _ _ (hl x hx)
    · intro generation body hcached
      have hcached : p.producerConfig = some (generation, body) := by
        rw [hp] at hcached
        exact hcached
      exact hmono _ _ (h.cached generation body hcached)
  · refine ⟨Or.inr ⟨k, c, hw, hslots⟩, Or.inl hconfigs, ⟨l, hpushes⟩, ?_, ?_, ?_, ?_⟩
    all_goals rw [hp, Page.setSlot]

/-- A step of `push` that stores nothing into the rings. -/
lemma Producing.of_cursors (h : p.Producing)
    (hp : p' = { p with
      producerCursor := p'.producerCursor
      configCursor := p'.configCursor
      producerConfig := p'.producerConfig
      push := p'.push })
    (hcursor : p.configCursor ≤ p'.configCursor)
    (hplaced : ∀ generation, 0 < generation → generation ≤ p'.configCursor →
      generation ≤ (p.configs (configIndex generation)).begun)
    (hcached : ∀ generation body, p'.producerConfig = some (generation, body) →
      p'.Named body generation) (hhere : p'.Here p'.push) : p'.Producing ∧ p.Advances p' := by
  have hslots : p'.slots = p.slots := by rw [hp]
  have hconfigs : p'.configs = p.configs := by rw [hp]
  have hpushes : p'.pushes = p.pushes := by rw [hp]
  have hbodies : p'.bodies = p.bodies := by rw [hp]
  constructor
  · refine ⟨hhere, ?_, ?_, ?_, ?_, hcached⟩
    · rw [hslots, hpushes]
      exact h.slots
    · rw [hconfigs, hbodies]
      exact h.configs
    · rw [hconfigs]
      exact hplaced
    · intro x hx
      rw [hpushes] at hx
      exact (h.named x hx).mono hcursor (hbodies.trans (List.append_nil _).symm)
  · refine ⟨Or.inl hslots, Or.inl hconfigs, ⟨[], ?_⟩, ?_, ?_, ?_, ?_⟩
    · rw [hpushes, List.append_nil]
    all_goals rw [hp]

/-- A new config is begun. -/
lemma Producing.beginConfig (h : p.Producing) (e : PendingVideoRingEntry)
    (hlength : p.bodies.length = p.configCursor ∧ p.pushes.length = p.producerCursor) :
    (p.beginConfig e).Producing ∧ p.Advances (p.beginConfig e) := by
  have hbegun := (h.configs (configIndex (p.configCursor + 1))).2
  have hlast : (p.beginConfig e).bodies.length = p.configCursor + 1 := by
    rw [← hlength.1]
    exact List.length_append
  refine h.setConfig (.invalidate (n := p.configCursor + 1) (by omega)) rfl rfl
    (Cell.Sound.of_zero rfl) hlast.ge ?_
  refine ⟨⟨hlast, hlength.2⟩, rfl, ?_, [], rfl, ?_⟩
  · rw [← hlength.1]
    exact Logged.last p.bodies e.body
  · show ((p.setConfig _ _).configs _).Storing _ _ _
    rw [configs_setConfig, Function.update_self]
    exact Cell.storing_invalidate _ _ _

/-- **A store of the producer.** -/
lemma Producing.pushStep (h : p.Producing) (hs : p.pushStep = some p') :
    p'.Producing ∧ p.Advances p' := by
  have hhere := h.here
  rw [Page.pushStep] at hs
  cases hpc : p.push with
  | idle =>
      rw [hpc] at hs
      cases hs
  | config e =>
      rw [hpc] at hs hhere
      have hbegin := h.beginConfig e hhere
      cases hconfig : p.producerConfig with
      | none =>
          simp only [hconfig, Option.some.injEq] at hs
          exact hs ▸ hbegin
      | some cached =>
          simp only [hconfig] at hs
          by_cases hbody : cached.2 = e.body
          · rw [if_pos hbody, Option.some.injEq] at hs
            have hnamed := h.cached cached.1 cached.2 hconfig
            rw [hbody] at hnamed
            have hp' : p' = { p with push := .slot e cached.1 } := by
              rw [← hs, hconfig]
            subst hp'
            exact h.of_cursors rfl le_rfl h.placed h.cached ⟨hhere, hnamed⟩
          · rw [if_neg hbody, Option.some.injEq] at hs
            exact hs ▸ hbegin
  | configStore e generation todo =>
      rw [hpc] at hs hhere
      obtain ⟨hlength, hcursor, hlog, done, hall, hstoring⟩ := hhere
      have hle : (p.configs (configIndex generation)).begun ≤ p.bodies.length :=
        (h.configs _).2
      cases todo with
      | nil =>
          cases hs
          rw [List.append_nil] at hall
          have hwritten : ConfigWritten p.bodies generation
              (p.configs (configIndex generation)).words :=
            ⟨e.body, hlog, fun f hf => hstoring.stored f (hall ▸ hf)⟩
          have hpublish : (p.configs (configIndex generation)).publish generation =
              (p.configs (configIndex generation)).publish
                (p.configs (configIndex generation)).begun := by rw [hstoring.begun]
          refine h.setConfig (hpublish ▸ .publish hstoring.sequence) (List.append_nil _).symm rfl
            (hstoring.sound hwritten) hle ⟨hlength, hcursor, hlog, ?_⟩
          show ((p.setConfig _ _).configs _).begun = _
          rw [configs_setConfig, Function.update_self]
          exact hstoring.begun
      | cons f todo =>
          cases hs
          refine h.setConfig (.store hstoring.sequence) (List.append_nil _).symm rfl
            (Cell.Sound.of_zero hstoring.sequence) hle
            ⟨hlength, hcursor, hlog, done ++ [f], ?_, ?_⟩
          · rw [hall, List.append_assoc]
            rfl
          · show ((p.setConfig _ _).configs _).Storing _ _ _
            rw [configs_setConfig, Function.update_self]
            exact hstoring.store f
  | configCursor e generation =>
      rw [hpc] at hs hhere
      cases hs
      obtain ⟨hlength, hcursor, hlog, hbegun⟩ := hhere
      have hnamed : ({ p with
          configCursor := generation
          producerConfig := some (generation, e.body)
          push := .slot e generation } : Page).Named e.body generation := ⟨le_rfl, hlog⟩
      have hgrown : p.configCursor ≤ generation := by omega
      refine h.of_cursors rfl hgrown (fun g hpos hle => ?_) (fun g body hcached => ?_)
        ⟨hlength, hnamed⟩
      · rcases Nat.lt_or_ge g generation with hlt | hge
        · exact h.placed g hpos (by omega)
        · have hg : g = generation := le_antisymm hle hge
          rw [hg, hbegun]
      · cases hcached
        exact hnamed
  | slot e generation =>
      rw [hpc] at hs hhere
      cases hs
      obtain ⟨hlength, hnamed⟩ := hhere
      have hbegun := (h.slots (p.slotIndex (p.producerCursor + 1))).2
      have hlast : (p.pushes ++ [(e, generation)]).length = p.producerCursor + 1 := by
        rw [← hlength.2]
        exact List.length_append
      refine h.setSlot (.invalidate (n := p.producerCursor + 1) (by omega))
        (l := [(e, generation)]) (fun x hx => ?_) rfl rfl (Cell.Sound.of_zero rfl) hlast.ge
        ⟨⟨hlength.1, hlast⟩, rfl, ?_, [], rfl, ?_⟩
      · rw [List.mem_singleton.mp hx]
        exact hnamed
      · rw [← hlength.2]
        exact Logged.last p.pushes (e, generation)
      · show ((p.setSlot _ _).slots (p.slotIndex _)).Storing _ _ _
        rw [slots_setSlot, Function.update_self]
        exact Cell.storing_invalidate _ _ _
  | slotStore e generation cursor todo =>
      rw [hpc] at hs hhere
      obtain ⟨hlength, hcursor, hlog, done, hall, hstoring⟩ := hhere
      have hle : (p.slots (p.slotIndex cursor)).begun ≤ p.pushes.length := (h.slots _).2
      cases todo with
      | nil =>
          cases hs
          rw [List.append_nil] at hall
          have hwritten : SlotWritten p.pushes cursor (p.slots (p.slotIndex cursor)).words :=
            ⟨e, generation, hlog, fun f hf => hstoring.stored f (hall ▸ hf)⟩
          have hpublish : (p.slots (p.slotIndex cursor)).publish cursor =
              (p.slots (p.slotIndex cursor)).publish
                (p.slots (p.slotIndex cursor)).begun := by rw [hstoring.begun]
          exact h.setSlot (l := []) (hpublish ▸ .publish hstoring.sequence) (fun _ h0 => (nomatch h0))
            (List.append_nil _).symm rfl (hstoring.sound hwritten) hle ⟨hlength, hcursor⟩
      | cons f todo =>
          cases hs
          refine h.setSlot (l := []) (.store hstoring.sequence) (fun _ h0 => (nomatch h0))
            (List.append_nil _).symm rfl (Cell.Sound.of_zero hstoring.sequence) hle
            ⟨hlength, hcursor, hlog, done ++ [f], ?_, ?_⟩
          · rw [hall, List.append_assoc]
            rfl
          · show ((p.setSlot _ _).slots (p.slotIndex _)).Storing _ _ _
            rw [slots_setSlot, Function.update_self]
            exact hstoring.store f
  | cursor cursor =>
      rw [hpc] at hs hhere
      cases hs
      obtain ⟨hlength, hcursor⟩ := hhere
      exact h.of_cursors rfl le_rfl h.placed h.cached hlength

/-! ### The reader -/

/-- The slot is that of the push with this cursor. -/
def IsSlot (p : Page) (cursor : ℕ) (slot : FrameSlot) : Prop :=
  ∃ e generation, Logged p.pushes cursor (e, generation) ∧ slot = e.slot generation

/-- **What the reader knows** at this point of `read_entry_for_cursor`. -/
def Reading (p : Page) : ReadPc → Prop
  | .slotFirst cursor => cursor ≠ 0
  | .slotCopy cursor first todo => cursor ≠ 0 ∧ ∃ done, SlotField.all = done ++ todo ∧
      Copied (p.slots (p.slotIndex cursor)) first p.slotCopy done
  | .configFirst cursor slot => p.IsSlot cursor slot
  | .configCopy cursor slot first todo => p.IsSlot cursor slot ∧ slot.configGeneration ≠ 0 ∧
      ∃ done, ConfigField.all = done ++ todo ∧
        Copied (p.configs (configIndex slot.configGeneration)) first p.configCopy done
  | .returned cursor (.ok entry) => ∃ e generation, Logged p.pushes cursor (e, generation) ∧
      entry = e.entry cursor generation
  | _ => True

lemma IsSlot.append {cursor : ℕ} {slot : FrameSlot} (h : p.IsSlot cursor slot)
    {more : List (PendingVideoRingEntry × ℕ)} (hpushes : p'.pushes = p.pushes ++ more) :
    p'.IsSlot cursor slot := by
  obtain ⟨e, generation, hlog, hslot⟩ := h
  refine ⟨e, generation, ?_, hslot⟩
  rw [hpushes]
  exact hlog.append more

/-- The reader keeps what it knows under the stores of the producer. -/
lemma Reading.advances {pc : ReadPc} (h : p.Reading pc) (ha : p.Advances p') : p'.Reading pc := by
  obtain ⟨more, hpushes⟩ := ha.pushes
  cases pc with
  | slotFirst cursor => exact h
  | slotCopy cursor first todo =>
      obtain ⟨hcursor, done, hall, hcopied⟩ := h
      refine ⟨hcursor, done, hall, ?_⟩
      have hindex : p'.slotIndex cursor = p.slotIndex cursor := by
        rw [slotIndex, slotIndex, ha.slotCapacity]
      rw [hindex, ha.slotCopy]
      rcases ha.slots with hslots | ⟨k, c, hw, hslots⟩
      · rw [hslots]
        exact hcopied
      · rw [hslots]
        exact hcopied.update hw
  | configFirst cursor slot => exact h.append hpushes
  | configCopy cursor slot first todo =>
      obtain ⟨hslot, hpos, done, hall, hcopied⟩ := h
      refine ⟨hslot.append hpushes, hpos, done, hall, ?_⟩
      rw [ha.configCopy]
      rcases ha.configs with hconfigs | ⟨k, c, hw, hconfigs⟩
      · rw [hconfigs]
        exact hcopied
      · rw [hconfigs]
        exact hcopied.update hw
  | returned cursor result =>
      cases result with
      | error e => trivial
      | ok entry =>
          obtain ⟨e, generation, hlog, hentry⟩ := h
          refine ⟨e, generation, ?_, hentry⟩
          rw [hpushes]
          exact hlog.append more
  | _ => trivial

/-- The low 32 bits of a generation name its place in the ring. -/
lemma configIndex_truncated (generation : ℕ) :
    configIndex (generation % 2 ^ 32) = configIndex generation := by
  have hmask : configRingCapacity - 1 = 2 ^ 2 - 1 := rfl
  rw [configIndex, configIndex, hmask, Nat.and_two_pow_sub_one_eq_mod,
    Nat.and_two_pow_sub_one_eq_mod]
  omega

/-- **The config that a reader validates is the one that the push named**: a config with
the same low bits but an older number has been overwritten. -/
lemma Producing.validated (h : p.Producing) {cursor generation : ℕ} {e : PendingVideoRingEntry}
    (hlog : Logged p.pushes cursor (e, generation)) {done : List ConfigField}
    (hall : ConfigField.all = done) (hpos : generation % 2 ^ 32 ≠ 0)
    (hcopied : Copied (p.configs (configIndex (generation % 2 ^ 32))) (generation % 2 ^ 32)
      p.configCopy done)
    (hsecond : (p.configs (configIndex (generation % 2 ^ 32))).sequence = generation % 2 ^ 32) :
    generation % 2 ^ 32 = generation ∧ StreamConfig.ofWords p.configCopy = e.body := by
  obtain ⟨hle, hbody⟩ := h.named _ hlog.mem
  obtain ⟨hbegun, ⟨body, hlast, hwords⟩, hcopy⟩ :=
    hcopied.validated (h.configs _).1 hpos hsecond
  have hplaced := h.placed generation hbody.1 hle
  rw [configIndex_truncated] at hbegun hwords hcopy
  have hsame : generation % 2 ^ 32 = generation := by
    have hmod := Nat.mod_le generation (2 ^ 32)
    omega
  refine ⟨hsame, StreamConfig.ofWords_eq fun f hf => ?_⟩
  rw [hsame] at hlast
  rw [hcopy f (hall ▸ hf), hwords f hf, hlast.unique hbody]

/-- The producer does not depend on its reader. -/
lemma Producing.of_read (h : p.Producing)
    (hp : p' = { p with read := p'.read, slotCopy := p'.slotCopy, configCopy := p'.configCopy }) :
    p'.Producing := by
  rw [hp]
  exact ⟨h.here, h.slots, h.configs, h.placed, h.named, h.cached⟩

/-- The second load of the sequence word of a slot. -/
lemma Producing.isSlot (h : p.Producing) {cursor : ℕ} (hcursor : cursor ≠ 0)
    (hcopied : Copied (p.slots (p.slotIndex cursor)) cursor p.slotCopy SlotField.all)
    (hsecond : (p.slots (p.slotIndex cursor)).sequence = cursor) :
    p.IsSlot cursor (.ofWords p.slotCopy) := by
  obtain ⟨-, ⟨e, generation, hlog, hwords⟩, hcopy⟩ :=
    hcopied.validated (h.slots _).1 hcursor hsecond
  exact ⟨e, generation, hlog, FrameSlot.ofWords_eq fun f hf => (hcopy f hf).trans (hwords f hf)⟩

/-- **A load of the reader.** -/
lemma Producing.readStep (h : p.Producing) (hr : p.Reading p.read) (hs : p.readStep = some p') :
    p'.Producing ∧ p'.Reading p'.read := by
  rw [Page.readStep] at hs
  cases hpc : p.read with
  | idle =>
      rw [hpc] at hs
      cases hs
  | returned cursor result =>
      rw [hpc] at hs
      cases hs
  | latest cursor =>
      rw [hpc] at hs
      dsimp only at hs
      split_ifs at hs
      all_goals
        cases hs
        exact ⟨h.of_read rfl, trivial⟩
  | oldest cursor latest =>
      rw [hpc] at hs
      dsimp only at hs
      split_ifs at hs with hlapped
      · cases hs
        exact ⟨h.of_read rfl, trivial⟩
      · cases hs
        have hcursor : cursor ≠ 0 := by omega
        exact ⟨h.of_read rfl, hcursor⟩
  | slotFirst cursor =>
      rw [hpc] at hs hr
      cases hs
      exact ⟨h.of_read rfl, hr, [], rfl, Copied.load_sequence (h.slots _).1 _⟩
  | slotCopy cursor first todo =>
      rw [hpc] at hs hr
      obtain ⟨hcursor, done, hall, hcopied⟩ := hr
      cases todo with
      | cons f todo =>
          cases hs
          refine ⟨h.of_read rfl, hcursor, done ++ [f], ?_, hcopied.load f⟩
          rw [hall, List.append_assoc]
          rfl
      | nil =>
          dsimp only at hs
          split_ifs at hs with hne
          · cases hs
            exact ⟨h.of_read rfl, trivial⟩
          · cases hs
            obtain ⟨rfl, hsecond⟩ : first = cursor ∧ _ = cursor := by simpa using hne
            rw [List.append_nil] at hall
            subst hall
            exact ⟨h.of_read rfl, h.isSlot hcursor hcopied hsecond⟩
  | configFirst cursor slot =>
      rw [hpc] at hs hr
      dsimp only at hs
      split_ifs at hs with hzero
      · cases hs
        exact ⟨h.of_read rfl, trivial⟩
      · cases hs
        exact ⟨h.of_read rfl, hr, hzero, [], rfl, Copied.load_sequence (h.configs _).1 _⟩
  | configCopy cursor slot first todo =>
      rw [hpc] at hs hr
      obtain ⟨hslot, hpos, done, hall, hcopied⟩ := hr
      cases todo with
      | cons f todo =>
          cases hs
          refine ⟨h.of_read rfl, hslot, hpos, done ++ [f], ?_, hcopied.load f⟩
          rw [hall, List.append_assoc]
          rfl
      | nil =>
          dsimp only at hs
          split_ifs at hs with hne
          · cases hs
            exact ⟨h.of_read rfl, trivial⟩
          · cases hs
            obtain ⟨hfirst, hsecond⟩ : first = slot.configGeneration ∧
              _ = slot.configGeneration := by simpa using hne
            subst hfirst
            rw [List.append_nil] at hall
            obtain ⟨e, generation, hlog, rfl⟩ := hslot
            obtain ⟨hsame, hbody⟩ := h.validated hlog hall hpos hcopied hsecond
            refine ⟨h.of_read rfl, e, generation, hlog, ?_⟩
            calc
              VideoRingEntry.fromParts cursor (e.slot generation) (generation % 2 ^ 32)
                  (.ofWords p.configCopy)
                = e.entry cursor (generation % 2 ^ 32) := by
                  rw [hbody, PendingVideoRingEntry.fromParts_slot_body]
              _ = e.entry cursor generation := by rw [hsame]

/-- The invariant of a page and its reader. -/
lemma Producing.step {l : PageLabel} (h : p.Producing ∧ p.Reading p.read)
    (hs : p.step l = some p') : p'.Producing ∧ p'.Reading p'.read := by
  cases l with
  | push e =>
      rw [Page.step] at hs
      split_ifs at hs with hpc
      cases hs
      have hhere := h.1.here
      rw [hpc] at hhere
      refine ⟨⟨hhere, h.1.slots, h.1.configs, h.1.placed, h.1.named, h.1.cached⟩, ?_⟩
      exact h.2.advances ⟨Or.inl rfl, Or.inl rfl, ⟨[], (List.append_nil _).symm⟩, rfl, rfl, rfl, rfl⟩
  | store =>
      obtain ⟨hproducing, hadvances⟩ := h.1.pushStep hs
      refine ⟨hproducing, ?_⟩
      rw [hadvances.read]
      exact h.2.advances hadvances
  | read cursor =>
      rw [Page.step] at hs
      split_ifs at hs
      cases hs
      exact ⟨h.1.of_read rfl, trivial⟩
  | load => exact h.1.readStep h.2 hs

lemma producing_new (capacity : ℕ) : (new capacity).Producing := by
  refine ⟨⟨rfl, rfl⟩, fun k => ⟨Cell.Sound.of_zero rfl, le_rfl⟩,
    fun k => ⟨Cell.Sound.of_zero rfl, le_rfl⟩, fun generation hpos hle => ?_,
    fun x hx => (nomatch hx), fun _ _ h0 => (nomatch h0)⟩
  exact absurd hle (Nat.not_le.mpr hpos)

end Page

/-- **A read returns only what has been published.** In every interleaving of the stores of
any pushes with the loads of any reads, on a page of any capacity: a read of a cursor that
succeeds returns the entry of the push with that number, in every field, with the stream
values of that push and with the generation that the push named. -/
theorem published_read {capacity : ℕ} {p : Page}
    (h : Reaches Page.step Always (Page.new capacity) p) {cursor : ℕ} {entry : VideoRingEntry}
    (hread : p.read = .returned cursor (.ok entry)) :
    ∃ e generation, Logged p.pushes cursor (e, generation) ∧
      entry = e.entry cursor generation := by
  have hp := h.invariant (P := fun p => p.Producing ∧ p.Reading p.read)
    ⟨Page.producing_new capacity, trivial⟩ fun a l b hp _ hs => Page.Producing.step hp hs
  have hreading := hp.2
  rw [hread] at hreading
  exact hreading

/-- A frame with number `n` of a stream of width `w`. -/
def sample (n w : ℕ) : PendingVideoRingEntry :=
  ⟨n, n, w, 1, w, 0, 7, n, 0, 4, 0, 0, 0, 0, 0, 0, 0, 0, 0, n, 0⟩

/-- Two frames of different streams on a page of one slot; the second is read. -/
def resized : List PageLabel :=
  [PageLabel.push (sample 1 64)] ++ List.replicate 40 PageLabel.store ++
    [PageLabel.push (sample 2 32)] ++ List.replicate 40 PageLabel.store ++
    [PageLabel.read 2] ++ List.replicate 40 PageLabel.load

theorem published_read_resized :
    ∃ e generation, Logged (play Page.step (Page.new 1) resized).pushes 2 (e, generation) ∧
      (sample 2 32).entry 2 2 = e.entry 2 generation := by
  have hread : (play Page.step (Page.new 1) resized).read =
      .returned 2 (.ok ((sample 2 32).entry 2 2)) := by decide +kernel
  exact published_read (Reaches.of_play _ _ _) hread

end Jackstay.Video
