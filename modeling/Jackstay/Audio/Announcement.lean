import Jackstay.Audio.Playback
import Jackstay.Audio.Doorbell

/-!
`audio.rs`: how a writer announces its blocks.

A track keeps a list of bells behind a lock. `Playback::register` waits for the lock;
`PlaybackWriter::write` only tries it, after the block is published, and goes through the
list: it rings every bell that is left, and drops the bells whose consumer has gone. While
a registration holds the lock the block is not announced.

The bells of the incarnations are named by numbers; a bell is live while the host retains
it and the end of the consumer is open, and it does not come back to life. `registered`,
`current` and `writes` are history variables: the entries that have been registered, and
for each write the entries registered before it began, the lock as it was found, the bells
that were rung, and the entries whose words have had their bits since the publication,
whoever has set them.

* `Announcer.Listed`: an entry stays in the list as long as its bell is live.
* `announced_block`: in a run in which every write finds the lock free, the word of every bell
  that was registered before a write and is live when it returns has had its bit.
* `unannounced_block`: a write during the registration of another consumer is not announced.
-/

namespace Jackstay.Audio

open Seqlock Transition

/-- A bell in the list of a track, with the bit of the track. -/
structure Entry where
  bell : ℕ
  bit : BitVec 64
  deriving DecidableEq, Repr

/-- Who holds the lock of the list. -/
inductive BellsLock where
  | free
  | writer
  /-- a registration, before or after its push -/
  | host (entry : Entry) (pushed : Bool)
  deriving DecidableEq, Repr

/-- A bell has been rung: its word right after, and the write cursor of the ring. -/
structure Rung where
  entry : Entry
  hint : BitVec 64
  latest : ℕ
  deriving DecidableEq, Repr

/-- What is known about a write. -/
structure Announced where
  cursor : ℕ := 0
  /-- the entries that were registered when the write began -/
  registered : List Entry := []
  /-- the lock of the list, as the write found it -/
  found : BellsLock := .free
  rung : List Rung := []
  /-- those of `registered` whose words have had their bits since the publication -/
  marked : List Entry := []
  /-- those of `registered` whose bells are live when the write returns -/
  live : List Entry := []
  deriving DecidableEq, Repr

/-- Where `write` is behind the publication of its block. -/
inductive AnnouncePc where
  | idle
  | tryLock
  /-- the entries still to be rung, and those that are kept -/
  | ringing (todo kept : List Entry)
  /-- the bell was silent before: it is signalled -/
  | signalling (entry : Entry) (todo kept : List Entry)
  | returning
  deriving DecidableEq, Repr

/-- A track with its list of bells. -/
structure Announcer where
  ring : Ring
  writer : Writer
  pc : AnnouncePc := .idle
  bells : List Entry := []
  lock : BellsLock := .free
  hints : ℕ → BitVec 64 := fun _ => 0
  /-- the host has the bell -/
  retained : ℕ → Bool := fun _ => true
  /-- the consumer has its end of the bell -/
  connected : ℕ → Bool := fun _ => true
  registered : List Entry := []
  current : Announced := {}
  writes : List Announced := []

/-- What may happen next. -/
inductive AnnouncerLabel where
  | writer (l : WriterLabel)
  /-- the next step of `write` behind the publication -/
  | announce
  /-- `Playback::register`: a host thread takes the lock -/
  | register (entry : Entry)
  | push
  | unlock
  /-- the consumer takes the word of its bell -/
  | take (bell : ℕ)
  /-- another track of the consumer rings -/
  | other (bell : ℕ) (bit : BitVec 64)
  /-- the host drops the bell -/
  | drop (bell : ℕ)
  /-- the consumer goes -/
  | disconnect (bell : ℕ)
  deriving DecidableEq, Repr

namespace Announcer

/-- The bell is live. -/
def live (a : Announcer) (bell : ℕ) : Bool := a.retained bell && a.connected bell

/-- A step of the writer: it begins a block, or it ends one, or neither. -/
def onWriter (a : Announcer) (l : WriterLabel) : Option Announcer :=
  (a.writer.step a.ring l).map fun x =>
    let a' := { a with ring := x.1, writer := x.2 }
    if a.writer.pc = .idle ∧ x.2.pc ≠ .idle then
      { a' with current := { cursor := x.2.cursor, registered := a.registered } }
    else if a.writer.pc ≠ .idle ∧ x.2.pc = .idle then { a' with pc := .tryLock }
    else a'

/-- `BellInner::ring` up to its `fetch_or`. -/
def fetchOr (a : Announcer) (e : Entry) : Announcer :=
  let hint := a.hints e.bell ||| e.bit
  { a with
    hints := Function.update a.hints e.bell hint
    current := { a.current with rung := a.current.rung ++ [⟨e, hint, a.ring.latest⟩] } }

/-- `retain` comes to the next entry of the list. -/
def visit (a : Announcer) (todo kept : List Entry) : Announcer :=
  match todo with
  | [] => { a with bells := kept, lock := .free, pc := .returning }
  | e :: todo =>
      -- a bell that the host has dropped cannot be upgraded
      if a.retained e.bell = true then
        -- only the first bit is signalled
        if a.hints e.bell = 0 then { a.fetchOr e with pc := .signalling e todo kept }
        else { a.fetchOr e with pc := .ringing todo (kept ++ [e]) }
      else { a with pc := .ringing todo kept }

/-- `write` returns. -/
def finish (a : Announcer) : Announcer :=
  { a with
    pc := .idle
    writes := a.writes ++
      [{ a.current with live := a.current.registered.filter fun e => a.live e.bell }] }

/-- One step of `write` behind the publication. -/
def announceStep (a : Announcer) : Option Announcer :=
  match a.pc with
  | .idle => none
  | .tryLock =>
      some <|
        if a.lock = .free then { a with lock := .writer, pc := .ringing a.bells [] }
        else { a with current := { a.current with found := a.lock }, pc := .returning }
  | .ringing todo kept => some (a.visit todo kept)
  | .signalling e todo kept =>
      -- the signal fails when the consumer has gone
      some { a with pc := .ringing todo (if a.connected e.bell then kept ++ [e] else kept) }
  | .returning => some a.finish

/-- What may happen to a track with its list of bells. -/
def move (a : Announcer) : AnnouncerLabel → Option Announcer
  | .writer l => if a.pc = .idle then a.onWriter l else none
  | .announce => a.announceStep
  | .register entry =>
      if a.lock = .free ∧ a.retained entry.bell = true then
        some { a with lock := .host entry false }
      else none
  | .push =>
      match a.lock with
      | .host entry false =>
          some { a with
            bells := a.bells ++ [entry]
            registered := a.registered ++ [entry]
            lock := .host entry true }
      | _ => none
  | .unlock =>
      match a.lock with
      | .host _ true => some { a with lock := .free }
      | _ => none
  | .take bell => some { a with hints := Function.update a.hints bell 0 }
  | .other bell bit => some { a with hints := Function.update a.hints bell (a.hints bell ||| bit) }
  | .drop bell => some { a with retained := Function.update a.retained bell false }
  | .disconnect bell => some { a with connected := Function.update a.connected bell false }

/-- Between the publication of a block and the return of its write: the words of the bells are
looked at. -/
def watch (a : Announcer) : Announcer :=
  if a.pc = .idle then a
  else { a with current := { a.current with
    marked := a.current.registered.filter fun e =>
      e ∈ a.current.marked ∨ a.hints e.bell &&& e.bit = e.bit } }

/-- **One step of a track with its list of bells.** -/
def step (a : Announcer) (l : AnnouncerLabel) : Option Announcer := (a.move l).map watch

/-- No registration holds the lock when `write` tries it. -/
def Uncontended (a : Announcer) (l : AnnouncerLabel) : Prop :=
  l = .announce → a.pc = .tryLock → a.lock = .free

instance (a : Announcer) (l : AnnouncerLabel) : Decidable (a.Uncontended l) :=
  inferInstanceAs (Decidable (_ → _ → _))

/-- A track that has just been made. -/
def Starts (s : Settings) (a : Announcer) : Prop :=
  ∃ ring, Ring.create s = some ring ∧ a = { ring, writer := { format := s.format } }

end Announcer

/-- The bell has been rung since the block was published. -/
def Announced.Tells (w : Announced) (e : Entry) : Prop :=
  ∃ x ∈ w.rung, x.entry = e ∧ Doorbell.Has x.hint e.bit ∧ x.latest = w.cursor

/-- **A write is announced, or it was in the way of a registration.** -/
def Announced.Settled (w : Announced) (entries : List Entry) : Prop :=
  (∃ entry pushed, w.found = .host entry pushed) ∧ w.rung = [] ∨
    w.found = .free ∧ ∀ e ∈ entries, w.Tells e

/-- A bell that was live and is no longer. -/
lemma Announced.Settled.filter {w : Announced} {entries : List Entry} {p q : Entry → Bool}
    (h : w.Settled (entries.filter p)) (hpq : ∀ e, q e = true → p e = true) :
    w.Settled (entries.filter q) := by
  rcases h with hskipped | ⟨hfound, htold⟩
  · exact Or.inl hskipped
  · refine Or.inr ⟨hfound, fun e he => ?_⟩
    obtain ⟨hmem, hq⟩ := List.mem_filter.mp he
    exact htold e (List.mem_filter.mpr ⟨hmem, hpq e hq⟩)

namespace Announcer

/-! ### What is in the list -/

/-- Every entry that has been registered and is live is among these. -/
def Lists (a : Announcer) (entries : List Entry) : Prop :=
  ∀ e ∈ a.registered, a.live e.bell = true → e ∈ entries

/-- A write has begun, and has rung these. -/
structure Rings (a : Announcer) (entries : List Entry) : Prop where
  cursor : a.current.cursor = a.writer.cursor
  registered : ∀ e ∈ a.current.registered, e ∈ a.registered
  found : a.current.found = .free
  told : ∀ e ∈ entries, a.current.Tells e

/-- `write` is at this point. -/
def Here (a : Announcer) : AnnouncePc → Prop
  | .idle => (a.lock ≠ .writer ∧ a.Lists a.bells) ∧
      (a.writer.pc ≠ .idle → a.Rings [] ∧ a.current.rung = [])
  | .tryLock => (a.lock ≠ .writer ∧ a.Lists a.bells) ∧
      a.writer.pc = .idle ∧ a.Rings [] ∧ a.current.rung = []
  | .ringing todo kept => (a.lock = .writer ∧ a.Lists (kept ++ todo)) ∧
      a.writer.pc = .idle ∧ a.Rings kept
  | .signalling e todo kept => (a.lock = .writer ∧ a.Lists (kept ++ e :: todo)) ∧
      a.writer.pc = .idle ∧ a.Rings (kept ++ [e])
  | .returning => (a.lock ≠ .writer ∧ a.Lists a.bells) ∧ a.writer.pc = .idle ∧
      a.current.Settled (a.current.registered.filter fun e => a.live e.bell)

/-- **An entry stays in the list as long as its bell is live**, and the writes so far are
announced or were in the way of a registration. -/
structure Listed (a : Announcer) : Prop where
  writing : Writing a.ring a.writer
  here : a.Here a.pc
  writes : ∀ w ∈ a.writes, w.Settled w.live

variable {a a' : Announcer}

/-- Only entries that are not live may be left out. -/
lemma Lists.mono {entries entries' : List Entry} (h : a.Lists entries)
    (hsub : ∀ e ∈ entries, a.live e.bell = true → e ∈ entries') : a.Lists entries' :=
  fun e he hlive => hsub e (h e he hlive) hlive

lemma Lists.erase {e : Entry} {todo kept : List Entry} (h : a.Lists (kept ++ e :: todo))
    (hdead : a.live e.bell = false) : a.Lists (kept ++ todo) := by
  refine h.mono fun x hx hlive => ?_
  rcases List.mem_append.mp hx with hx | hx
  · exact List.mem_append_left _ hx
  · rcases List.mem_cons.mp hx with rfl | hx
    · cases hdead.symm.trans hlive
    · exact List.mem_append_right _ hx

lemma Rings.congr {entries : List Entry} (h : a.Rings entries) (hcurrent : a'.current = a.current)
    (hwriter : a'.writer = a.writer) (hregistered : a'.registered = a.registered) :
    a'.Rings entries := by
  refine ⟨?_, ?_, ?_, ?_⟩
  · rw [hcurrent, hwriter]
    exact h.cursor
  · rw [hcurrent, hregistered]
    exact h.registered
  · rw [hcurrent]
    exact h.found
  · rw [hcurrent]
    exact h.told

lemma Rings.of_append {kept more : List Entry} (h : a.Rings (kept ++ more)) : a.Rings kept :=
  ⟨h.cursor, h.registered, h.found, fun e he => h.told e (List.mem_append_left _ he)⟩

/-- The bells change, and some may die: the list is not concerned. -/
lemma Here.others {pc : AnnouncePc} (h : a.Here pc)
    (ha' : a' = { a with
      hints := a'.hints, retained := a'.retained, connected := a'.connected })
    (hlive : ∀ bell, a'.live bell = true → a.live bell = true) : a'.Here pc := by
  have hlists : ∀ entries, a.Lists entries → a'.Lists entries := by
    intro entries hlists e he halive
    rw [ha'] at he
    exact hlists e he (hlive e.bell halive)
  have hrings : ∀ entries, a.Rings entries → a'.Rings entries := by
    intro entries hrings
    rw [ha']
    exact hrings.congr rfl rfl rfl
  have hlock : a'.lock = a.lock := by rw [ha']
  have hbells : a'.bells = a.bells := by rw [ha']
  have hwriter : a'.writer = a.writer := by rw [ha']
  have hcurrent : a'.current = a.current := by rw [ha']
  cases pc with
  | idle =>
      rw [Here, hlock, hbells, hwriter, hcurrent]
      refine ⟨⟨h.1.1, hlists _ h.1.2⟩, fun hbusy => ?_⟩
      exact ⟨hrings _ (h.2 hbusy).1, (h.2 hbusy).2⟩
  | tryLock =>
      rw [Here, hlock, hbells, hwriter, hcurrent]
      exact ⟨⟨h.1.1, hlists _ h.1.2⟩, h.2.1, hrings _ h.2.2.1, h.2.2.2⟩
  | ringing todo kept =>
      rw [Here, hlock, hwriter]
      exact ⟨⟨h.1.1, hlists _ h.1.2⟩, h.2.1, hrings _ h.2.2⟩
  | signalling e todo kept =>
      rw [Here, hlock, hwriter]
      exact ⟨⟨h.1.1, hlists _ h.1.2⟩, h.2.1, hrings _ h.2.2⟩
  | returning =>
      rw [Here, hlock, hbells, hwriter, hcurrent]
      exact ⟨⟨h.1.1, hlists _ h.1.2⟩, h.2.1,
        Announced.Settled.filter h.2.2 fun e => hlive e.bell⟩

/-- A registration: the writer does not hold the lock, so that the list is at rest. -/
lemma Here.host {pc : AnnouncePc} (h : a.Here pc) (more : List Entry)
    (ha' : a' = { a with
      bells := a.bells ++ more, registered := a.registered ++ more, lock := a'.lock })
    (hlock : a.lock ≠ .writer) (hlock' : a'.lock ≠ .writer) : a'.Here pc := by
  have hlists : a.Lists a.bells → a'.Lists a'.bells := by
    intro hlists e he halive
    rw [ha'] at he halive ⊢
    rcases List.mem_append.mp he with he | he
    · exact List.mem_append_left _ (hlists e he halive)
    · exact List.mem_append_right _ he
  have hrings : ∀ entries, a.Rings entries → a'.Rings entries := by
    intro entries hrings
    rw [ha']
    exact ⟨hrings.cursor, fun e he => List.mem_append_left _ (hrings.registered e he),
      hrings.found, hrings.told⟩
  have hwriter : a'.writer = a.writer := by rw [ha']
  have hcurrent : a'.current = a.current := by rw [ha']
  have hlive : a'.live = a.live := by rw [ha']; rfl
  cases pc with
  | idle =>
      rw [Here, hwriter, hcurrent]
      refine ⟨⟨hlock', hlists h.1.2⟩, fun hbusy => ?_⟩
      exact ⟨hrings _ (h.2 hbusy).1, (h.2 hbusy).2⟩
  | tryLock =>
      rw [Here, hwriter, hcurrent]
      exact ⟨⟨hlock', hlists h.1.2⟩, h.2.1, hrings _ h.2.2.1, h.2.2.2⟩
  | ringing todo kept => exact absurd h.1.1 hlock
  | signalling e todo kept => exact absurd h.1.1 hlock
  | returning =>
      rw [Here, hwriter, hcurrent, hlive]
      exact ⟨⟨hlock', hlists h.1.2⟩, h.2⟩

/-! ### The steps of a write -/

/-- A block that is being written keeps its cursor. -/
lemma step_cursor {r : Ring} {w : Writer} {l : WriterLabel} {x : Ring × Writer}
    (hbusy : w.pc ≠ .idle) (hs : w.step r l = some x) : x.2.cursor = w.cursor := by
  cases l with
  | store =>
      have hs : w.store r = some x := hs
      unfold Writer.store at hs
      split at hs
      · cases hs
      · cases hs
        rfl
      · cases hs
        rfl
      · cases hs
        rfl
  | write samples hostTimeNs =>
      rw [Writer.step, if_neg hbusy] at hs
      cases hs
  | discontinuity =>
      rw [Writer.step, if_neg hbusy] at hs
      cases hs
  | reconfigure format =>
      rw [Writer.step, if_neg hbusy] at hs
      cases hs

/-- The writer takes a step up to the publication of its block. -/
lemma Listed.onWriter (h : a.Listed) (hidle : a.pc = .idle) {l : WriterLabel}
    (hs : a.onWriter l = some a') : a'.Listed := by
  obtain ⟨x, hx, hs⟩ := Option.map_eq_some_iff.mp hs
  have hwriting := (h.writing.step hx).1
  have hhere := h.here
  rw [hidle] at hhere
  obtain ⟨hlist, hbusy⟩ := hhere
  have hkept : a.writer.pc ≠ .idle → x.2.cursor = a.writer.cursor :=
    fun hpc => step_cursor hpc hx
  dsimp only at hs
  split_ifs at hs with hbegins hends
  · subst hs
    refine ⟨hwriting, ?_, h.writes⟩
    show Here _ a.pc
    rw [hidle]
    refine ⟨hlist, fun _ => ⟨⟨rfl, fun e he => he, rfl, fun e he => (nomatch he)⟩, rfl⟩⟩
  · subst hs
    obtain ⟨hrings, hsilent⟩ := hbusy hends.1
    refine ⟨hwriting, ⟨hlist, hends.2, ⟨?_, hrings.registered, hrings.found, hrings.told⟩, hsilent⟩,
      h.writes⟩
    exact hrings.cursor.trans (hkept hends.1).symm
  · subst hs
    refine ⟨hwriting, ?_, h.writes⟩
    show Here _ a.pc
    rw [hidle]
    refine ⟨hlist, fun hpc => ?_⟩
    have hpc : x.2.pc ≠ .idle := hpc
    have hwas : a.writer.pc ≠ .idle := fun h0 => hbegins ⟨h0, hpc⟩
    obtain ⟨hrings, hsilent⟩ := hbusy hwas
    refine ⟨⟨?_, hrings.registered, hrings.found, hrings.told⟩, hsilent⟩
    exact hrings.cursor.trans (hkept hwas).symm

/-- A bell is rung. -/
lemma Rings.fetchOr {kept : List Entry} (h : a.Rings kept) (hlatest : a.ring.latest = a.writer.cursor)
    (e : Entry) : (a.fetchOr e).Rings (kept ++ [e]) := by
  refine ⟨h.cursor, h.registered, h.found, fun x hx => ?_⟩
  rcases List.mem_append.mp hx with hx | hx
  · obtain ⟨y, hy, hrest⟩ := h.told x hx
    exact ⟨y, List.mem_append_left _ hy, hrest⟩
  · rw [List.mem_singleton.mp hx]
    refine ⟨⟨e, a.hints e.bell ||| e.bit, a.ring.latest⟩, List.mem_append_right _
      List.mem_cons_self, rfl, Doorbell.has_or_right _ _, ?_⟩
    exact hlatest.trans h.cursor.symm

/-- `retain` visits an entry, or ends. -/
lemma Listed.visit (h : a.Listed) {todo kept : List Entry} (hpc : a.pc = .ringing todo kept) :
    (a.visit todo kept).Listed := by
  have hhere := h.here
  rw [hpc] at hhere
  obtain ⟨⟨hlock, hlists⟩, hidle, hrings⟩ := hhere
  have hlatest : a.ring.latest = a.writer.cursor := by
    have hwriter := h.writing.here
    rw [hidle] at hwriter
    exact hwriter.1
  cases todo with
  | nil =>
      rw [List.append_nil] at hlists
      refine ⟨h.writing, ⟨⟨fun h0 => (nomatch h0), hlists⟩, hidle, ?_⟩, h.writes⟩
      refine Or.inr ⟨hrings.found, fun e he => ?_⟩
      obtain ⟨hmem, halive⟩ := List.mem_filter.mp he
      exact hrings.told e (hlists e (hrings.registered e hmem) halive)
  | cons e todo =>
      rw [Announcer.visit]
      split_ifs with hretained hzero
      · exact ⟨h.writing, ⟨⟨hlock, hlists⟩, hidle, (hrings.fetchOr hlatest e).congr rfl rfl rfl⟩,
          h.writes⟩
      · refine ⟨h.writing, ⟨⟨hlock, ?_⟩, hidle, (hrings.fetchOr hlatest e).congr rfl rfl rfl⟩,
          h.writes⟩
        rw [List.append_assoc]
        exact hlists
      · refine ⟨h.writing, ⟨⟨hlock, hlists.erase ?_⟩, hidle, hrings.congr rfl rfl rfl⟩,
          h.writes⟩
        rw [live, Bool.eq_false_of_not_eq_true hretained, Bool.false_and]

/-- **A step of `write` behind the publication.** -/
lemma Listed.announce (h : a.Listed) (hs : a.announceStep = some a') : a'.Listed := by
  have hhere := h.here
  unfold announceStep at hs
  cases hpc : a.pc with
  | idle =>
      rw [hpc] at hs
      cases hs
  | tryLock =>
      rw [hpc] at hs hhere
      obtain ⟨⟨hlock, hlists⟩, hidle, hrings, hsilent⟩ := hhere
      dsimp only at hs
      split_ifs at hs with hfree
      · cases hs
        exact ⟨h.writing, ⟨⟨rfl, hlists⟩, hidle, hrings.congr rfl rfl rfl⟩, h.writes⟩
      · cases hs
        refine ⟨h.writing, ⟨⟨hlock, hlists⟩, hidle, Or.inl ⟨?_, hsilent⟩⟩, h.writes⟩
        cases hheld : a.lock with
        | free => exact absurd hheld hfree
        | writer => exact absurd hheld hlock
        | host entry pushed => exact ⟨entry, pushed, rfl⟩
  | ringing todo kept =>
      rw [hpc] at hs
      cases hs
      exact h.visit hpc
  | signalling e todo kept =>
      rw [hpc] at hs hhere
      obtain ⟨⟨hlock, hlists⟩, hidle, hrings⟩ := hhere
      dsimp only at hs
      split_ifs at hs with hconnected
      · cases hs
        refine ⟨h.writing, ⟨⟨hlock, ?_⟩, hidle, hrings.congr rfl rfl rfl⟩, h.writes⟩
        rw [List.append_assoc]
        exact hlists
      · cases hs
        refine ⟨h.writing, ⟨⟨hlock, hlists.erase ?_⟩, hidle, hrings.of_append.congr rfl rfl rfl⟩,
          h.writes⟩
        rw [live, Bool.eq_false_of_not_eq_true hconnected, Bool.and_false]
  | returning =>
      rw [hpc] at hs hhere
      cases hs
      obtain ⟨hlist, hidle, hsettled⟩ := hhere
      refine ⟨h.writing, ⟨hlist, fun hbusy => absurd hidle hbusy⟩, fun w hw => ?_⟩
      rcases List.mem_append.mp hw with hw | hw
      · exact h.writes w hw
      · rw [List.mem_singleton.mp hw]
        exact hsettled

/-- A bell that is up when one bell has gone was up before. -/
lemma of_cleared {up : ℕ → Bool} {bell other : ℕ}
    (h : Function.update up bell false other = true) : up other = true := by
  by_cases hother : other = bell
  · rw [hother, Function.update_self] at h
    cases h
  · rwa [Function.update_of_ne hother] at h

/-- **Whatever happens keeps the list.** -/
lemma Listed.move (h : a.Listed) {l : AnnouncerLabel} (hs : a.move l = some a') : a'.Listed := by
  cases l with
  | writer l =>
      rw [Announcer.move] at hs
      split_ifs at hs with hidle
      exact h.onWriter hidle hs
  | announce => exact h.announce hs
  | register entry =>
      rw [Announcer.move] at hs
      split_ifs at hs with hfree
      cases hs
      have hlock : a.lock ≠ .writer := fun h0 => (nomatch hfree.1.symm.trans h0)
      refine ⟨h.writing, h.here.host [] ?_ hlock fun h0 => (nomatch h0), h.writes⟩
      rw [List.append_nil, List.append_nil]
  | push =>
      simp only [Announcer.move] at hs
      split at hs
      · rename_i entry hheld
        cases hs
        have hlock : a.lock ≠ .writer := fun h0 => (nomatch hheld.symm.trans h0)
        exact ⟨h.writing, h.here.host _ rfl hlock fun h0 => (nomatch h0), h.writes⟩
      · cases hs
  | unlock =>
      simp only [Announcer.move] at hs
      split at hs
      · rename_i entry hheld
        cases hs
        have hlock : a.lock ≠ .writer := fun h0 => (nomatch hheld.symm.trans h0)
        refine ⟨h.writing, h.here.host [] ?_ hlock fun h0 => (nomatch h0), h.writes⟩
        rw [List.append_nil, List.append_nil]
      · cases hs
  | take bell =>
      cases hs
      exact ⟨h.writing, h.here.others rfl fun _ h0 => h0, h.writes⟩
  | other bell bit =>
      cases hs
      exact ⟨h.writing, h.here.others rfl fun _ h0 => h0, h.writes⟩
  | drop bell =>
      cases hs
      refine ⟨h.writing, h.here.others rfl fun other halive => ?_, h.writes⟩
      obtain ⟨hretained, hconnected⟩ := Bool.and_eq_true_iff.mp halive
      rw [live, Bool.and_eq_true_iff]
      exact ⟨of_cleared hretained, hconnected⟩
  | disconnect bell =>
      cases hs
      refine ⟨h.writing, h.here.others rfl fun other halive => ?_, h.writes⟩
      obtain ⟨hretained, hconnected⟩ := Bool.and_eq_true_iff.mp halive
      rw [live, Bool.and_eq_true_iff]
      exact ⟨hretained, of_cleared hconnected⟩

lemma Listed.starts {s : Settings} (h : Starts s a) : a.Listed := by
  obtain ⟨ring, hring, rfl⟩ := h
  refine ⟨Writing.new hring rfl rfl rfl, ⟨⟨fun h0 => (nomatch h0), fun e he => (nomatch he)⟩,
    fun hbusy => absurd rfl hbusy⟩, fun w hw => (nomatch hw)⟩

/-- The list has no part in what is seen of the words. -/
lemma Here.marked {pc : AnnouncePc} (h : a.Here pc) (marked : List Entry) :
    Here { a with current := { a.current with marked } } pc := by
  cases pc with
  | idle => exact ⟨h.1, fun hbusy => ⟨⟨(h.2 hbusy).1.cursor, (h.2 hbusy).1.registered,
      (h.2 hbusy).1.found, (h.2 hbusy).1.told⟩, (h.2 hbusy).2⟩⟩
  | tryLock =>
      obtain ⟨hlist, hidle, hrings, hsilent⟩ := h
      exact ⟨hlist, hidle, ⟨hrings.cursor, hrings.registered, hrings.found, hrings.told⟩, hsilent⟩
  | ringing todo kept =>
      obtain ⟨hlist, hidle, hrings⟩ := h
      exact ⟨hlist, hidle, hrings.cursor, hrings.registered, hrings.found, hrings.told⟩
  | signalling e todo kept =>
      obtain ⟨hlist, hidle, hrings⟩ := h
      exact ⟨hlist, hidle, hrings.cursor, hrings.registered, hrings.found, hrings.told⟩
  | returning => exact h

/-- **Every step keeps the list.** -/
lemma Listed.step (h : a.Listed) {l : AnnouncerLabel} (hs : a.step l = some a') : a'.Listed := by
  obtain ⟨b, hb, rfl⟩ := Option.map_eq_some_iff.mp hs
  have hlisted := h.move hb
  rw [watch]
  split_ifs
  · exact hlisted
  · exact ⟨hlisted.writing, hlisted.here.marked _, hlisted.writes⟩

/-! ### What is seen of the words -/

/-- What happens to the writes: nothing, or one begins, or rings a bell, or finds the lock held,
or returns. -/
lemma move_cases {l : AnnouncerLabel} (hs : a.move l = some a') :
    (a'.writes = a.writes ∧ (a'.current = a.current ∨
      (∃ cursor registered, a'.current = { cursor, registered }) ∨
      (∃ e, a'.pc ≠ .idle ∧ a'.hints = (a.fetchOr e).hints ∧
        a'.current = (a.fetchOr e).current) ∨
      (l = .announce ∧ a.pc = .tryLock ∧ a.lock ≠ .free ∧
        a'.current = { a.current with found := a.lock }))) ∨
    a' = a.finish := by
  cases l with
  | writer l =>
      rw [move] at hs
      split_ifs at hs with hidle
      obtain ⟨x, hx, hs⟩ := Option.map_eq_some_iff.mp hs
      dsimp only at hs
      split_ifs at hs with hbegins hends
      · subst hs
        exact Or.inl ⟨rfl, Or.inr (Or.inl ⟨_, _, rfl⟩)⟩
      · subst hs
        exact Or.inl ⟨rfl, Or.inl rfl⟩
      · subst hs
        exact Or.inl ⟨rfl, Or.inl rfl⟩
  | announce =>
      rw [move, announceStep] at hs
      cases hpc : a.pc with
      | idle =>
          rw [hpc] at hs
          cases hs
      | tryLock =>
          rw [hpc] at hs
          dsimp only at hs
          split_ifs at hs with hfree
          · cases hs
            exact Or.inl ⟨rfl, Or.inl rfl⟩
          · cases hs
            exact Or.inl ⟨rfl, Or.inr (Or.inr (Or.inr ⟨rfl, rfl, hfree, rfl⟩))⟩
      | ringing todo kept =>
          rw [hpc] at hs
          cases hs
          left
          cases todo with
          | nil => exact ⟨rfl, Or.inl rfl⟩
          | cons e todo =>
              rw [visit]
              split_ifs
              · exact ⟨rfl, Or.inr (Or.inr (Or.inl ⟨e, by rintro ⟨⟩, rfl, rfl⟩))⟩
              · exact ⟨rfl, Or.inr (Or.inr (Or.inl ⟨e, by rintro ⟨⟩, rfl, rfl⟩))⟩
              · exact ⟨rfl, Or.inl rfl⟩
      | signalling e todo kept =>
          rw [hpc] at hs
          cases hs
          exact Or.inl ⟨rfl, Or.inl rfl⟩
      | returning =>
          rw [hpc] at hs
          cases hs
          exact Or.inr rfl
  | register entry =>
      rw [move] at hs
      split_ifs at hs
      cases hs
      exact Or.inl ⟨rfl, Or.inl rfl⟩
  | push =>
      simp only [move] at hs
      split at hs
      · cases hs
        exact Or.inl ⟨rfl, Or.inl rfl⟩
      · cases hs
  | unlock =>
      simp only [move] at hs
      split at hs
      · cases hs
        exact Or.inl ⟨rfl, Or.inl rfl⟩
      · cases hs
  | _ =>
      cases hs
      exact Or.inl ⟨rfl, Or.inl rfl⟩

end Announcer

/-- The word of a bell that has been rung has had its bit. -/
def Announced.Marks (w : Announced) : Prop :=
  ∀ x ∈ w.rung, x.entry ∈ w.registered → x.entry ∈ w.marked

namespace Announcer

variable {a a' : Announcer}

/-- Every bell that a write rings is seen. -/
structure Seen (a : Announcer) : Prop where
  current : a.current.Marks
  writes : ∀ w ∈ a.writes, w.Marks ∧ ∀ e ∈ w.live, e ∈ w.registered

/-- What has been seen stays so. -/
lemma watch_marks (h : ∀ x ∈ a.current.rung, x.entry ∈ a.current.registered →
    x.entry ∈ a.current.marked ∨
      a.pc ≠ .idle ∧ a.hints x.entry.bell &&& x.entry.bit = x.entry.bit) :
    a.watch.current.Marks := by
  rw [watch]
  split_ifs with hidle
  · exact fun x hx hregistered =>
      (h x hx hregistered).elim id fun hnow => absurd hidle hnow.1
  · intro x hx hregistered
    refine List.mem_filter.mpr ⟨hregistered, decide_eq_true ?_⟩
    exact (h x hx hregistered).imp id And.right

lemma writes_watch (a : Announcer) : a.watch.writes = a.writes := by
  rw [watch]
  split_ifs <;> rfl

/-- **Every step sees the bells that it rings.** -/
lemma Seen.step (h : a.Seen) {l : AnnouncerLabel} (hs : a.step l = some a') : a'.Seen := by
  obtain ⟨b, hb, rfl⟩ := Option.map_eq_some_iff.mp hs
  rcases move_cases hb with ⟨hwrites, hcurrent⟩ | rfl
  · refine ⟨watch_marks fun x hx hregistered => ?_, by rw [writes_watch, hwrites]; exact h.writes⟩
    rcases hcurrent with hsame | ⟨cursor, registered, hnew⟩ | ⟨e, hpc, hhints, hrung⟩ |
      ⟨-, -, -, hheld⟩
    · rw [hsame] at hx hregistered ⊢
      exact Or.inl (h.current x hx hregistered)
    · rw [hnew] at hx
      cases hx
    · rw [hrung] at hx hregistered ⊢
      rcases List.mem_append.mp hx with hx | hx
      · exact Or.inl (h.current x hx hregistered)
      · -- the bell that has just been rung
        refine Or.inr ⟨hpc, ?_⟩
        rw [List.mem_singleton.mp hx, hhints, fetchOr]
        simp only [Function.update_self]
        ext n
        simp only [BitVec.getElem_and, BitVec.getElem_or, Bool.and_eq_right_iff_imp]
        intro hbit
        rw [hbit, Bool.or_true]
    · rw [hheld] at hx hregistered ⊢
      exact Or.inl (h.current x hx hregistered)
  · refine ⟨watch_marks fun x hx hregistered => Or.inl (h.current x hx hregistered), ?_⟩
    rw [writes_watch]
    intro w hw
    rcases List.mem_append.mp hw with hw | hw
    · exact h.writes w hw
    · rw [List.mem_singleton.mp hw]
      exact ⟨h.current, fun e he => (List.mem_filter.mp he).1⟩

/-- So far every write has found the lock free. -/
structure Unheld (a : Announcer) : Prop where
  current : a.current.found = .free
  writes : ∀ w ∈ a.writes, w.found = .free

lemma found_watch (a : Announcer) : a.watch.current.found = a.current.found := by
  rw [watch]
  split_ifs <;> rfl

/-- **A write that is not in the way of a registration finds the lock free.** -/
lemma Unheld.step (h : a.Unheld) {l : AnnouncerLabel} (hl : a.Uncontended l)
    (hs : a.step l = some a') : a'.Unheld := by
  obtain ⟨b, hb, rfl⟩ := Option.map_eq_some_iff.mp hs
  refine ⟨(found_watch b).trans ?_, fun w hw => ?_⟩
  · rcases move_cases hb with ⟨-, hsame | ⟨cursor, registered, hnew⟩ | ⟨e, -, -, hrung⟩ |
      ⟨hl', hpc, hheld, -⟩⟩ | rfl
    · rw [hsame]
      exact h.current
    · rw [hnew]
    · rw [hrung]
      exact h.current
    · exact absurd (hl hl' hpc) hheld
    · exact h.current
  · rw [writes_watch] at hw
    rcases move_cases hb with ⟨hwrites, -⟩ | rfl
    · exact h.writes w (hwrites ▸ hw)
    · rcases List.mem_append.mp hw with hw | hw
      · exact h.writes w hw
      · rw [List.mem_singleton.mp hw]
        exact h.current

end Announcer

/-- **A block is announced, unless a registration holds the list.** In every interleaving
of the writer of a track with registrations, takes, rings of other tracks and departures in
which no registration holds the lock when a write tries it: the word of every bell that was
registered before a write and is live when the write returns has had its bit between the
publication of the block and that return. In any interleaving a write that finds the lock free
has set these bits itself, with the block published; a write that does not was in the way of a
registration, and has rung no bell. -/
theorem announced_block {s : Settings} {a a' : Announcer} (hstart : Announcer.Starts s a) :
    (Reaches Announcer.step Announcer.Uncontended a a' →
      ∀ w ∈ a'.writes, ∀ e ∈ w.live, e ∈ w.marked) ∧
    (Reaches Announcer.step Always a a' → ∀ w ∈ a'.writes,
      (w.found = .free ∧ ∀ e ∈ w.live, ∃ x ∈ w.rung,
        x.entry = e ∧ Doorbell.Has x.hint e.bit ∧ x.latest = w.cursor) ∨
      (∃ entry pushed, w.found = .host entry pushed) ∧ w.rung = []) := by
  have hlisted : Reaches Announcer.step Always a a' → a'.Listed := fun h =>
    h.invariant (Announcer.Listed.starts hstart) fun _ _ _ hp _ hs => hp.step hs
  obtain ⟨ring, -, rfl⟩ := hstart
  refine ⟨fun h w hw e he => ?_, fun h w hw => ?_⟩
  · have hseen : a'.Seen := h.invariant ⟨fun x hx => (nomatch hx), fun w hw => (nomatch hw)⟩
      fun _ _ _ hp _ hs => hp.step hs
    have hunheld : a'.Unheld := h.invariant ⟨rfl, fun w hw => (nomatch hw)⟩
      fun _ _ _ hp hl hs => hp.step hl hs
    rcases (hlisted h.always).writes w hw with ⟨⟨entry, pushed, hheld⟩, -⟩ | ⟨-, htold⟩
    · cases (hunheld.writes w hw).symm.trans hheld
    · obtain ⟨x, hx, rfl, -⟩ := htold e he
      obtain ⟨hmarks, hregistered⟩ := hseen.writes w hw
      exact hmarks x hx (hregistered _ he)
  · rcases (hlisted h).writes w hw with hskipped | hannounced
    · exact Or.inr hskipped
    · exact Or.inl hannounced

/-- A track of `tinySettings`. -/
def tinyTrack : Announcer := { ring := tinyRing, writer := { format := tinyFormat } }

/-- Two consumers register; the second one goes, and a block is written. -/
def rungFor : List AnnouncerLabel :=
  List.flatten [[.register ⟨0, 1⟩, .push, .unlock, .register ⟨1, 2⟩, .push, .unlock,
    .disconnect 1, .writer (.write [7] 0)], List.replicate 12 (.writer .store),
    List.replicate 7 .announce]

theorem announced_block_rungFor :
    let a := playIn Announcer.step (fun a l => decide (a.Uncontended l)) tinyTrack rungFor
    (a.writes.map (fun w => (w.live, w.marked)) = [([⟨0, 1⟩], [⟨0, 1⟩, ⟨1, 2⟩])] ∧
      a.bells = [⟨0, 1⟩]) ∧ ∀ w ∈ a.writes, ∀ e ∈ w.live, e ∈ w.marked := by
  intro a
  have hreach : Reaches Announcer.step Announcer.Uncontended tinyTrack a :=
    Reaches.of_playIn (fun _ _ h => of_decide_eq_true h) _ _
  refine ⟨by decide +kernel, ?_⟩
  exact (announced_block (s := tinySettings) ⟨tinyRing, create_tiny, rfl⟩).1 hreach

/-- A consumer has registered, and a block is written while a second one does. -/
def contended : List AnnouncerLabel :=
  List.flatten [[.register ⟨0, 1⟩, .push, .unlock, .register ⟨1, 2⟩, .writer (.write [7] 0)],
    List.replicate 12 (.writer .store), List.replicate 2 .announce]

/-- A write during the registration of another consumer is not announced. -/
theorem unannounced_block :
    ¬ ∀ (s : Settings) (a a' : Announcer), Announcer.Starts s a →
      Reaches Announcer.step Always a a' → ∀ w ∈ a'.writes, ∀ e ∈ w.live, e ∈ w.marked := by
  intro h
  have hreach := Reaches.of_play Announcer.step tinyTrack contended
  have hwrites : (play Announcer.step tinyTrack contended).writes =
      [{ cursor := 1, registered := [⟨0, 1⟩], found := .host ⟨1, 2⟩ false, live := [⟨0, 1⟩] }] := by
    decide +kernel
  have hmarked := h tinySettings tinyTrack _ ⟨tinyRing, create_tiny, rfl⟩ hreach
  rw [hwrites] at hmarked
  cases hmarked _ List.mem_cons_self ⟨0, 1⟩ List.mem_cons_self

end Jackstay.Audio
