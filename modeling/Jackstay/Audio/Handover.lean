import Jackstay.Audio.Recording

/-!
The gap flags of a recording track, across a change of writers.

`RecordingReader::read` that takes a new ring over sets its cursor back and leaves the flag of
a pending gap as it is. The flag of a reader that has been lapped and has found no block since
is so carried to the first block of the next writer, where nothing was skipped.

* `Reader.Turns`: what a load does to the cursor of a reader.
* `Recording.Flagged`: the invariant of the cursor and of the pending gap.
* `gap_carried_over`: a block with a gap, at the cursor that was expected.
* `gaps_truthful`: as long as no ring is taken over with a gap pending, a block has a gap
  exactly if a block before it was skipped because the reader was lapped.
-/

namespace Jackstay.Audio

open Seqlock Transition

/-! ### The loads of a reader -/

/-- **What a load does to the cursor of a reader**: nothing; it picks the first cursor; it
returns the block of the cursor; it resynchronises, forward. -/
inductive Reader.Turns (r r' : Reader) : Prop
  | same (next : r'.next = r.next) (gap : r'.gap = r.gap) (started : r'.started = r.started)
      (returned : r'.returned = r.returned)
  | start (unstarted : r.next = 0) (next : r'.next ≠ 0) (started : r'.started = some r'.next)
      (gap : r'.gap = r.gap) (returned : r'.returned = r.returned)
  | block (w : Written) (pos : 0 < r.next) (idle : r'.pc = .idle)
      (returned : r'.returned = r.returned ++ [w.block r.next r.gap])
      (next : r'.next = r.next + 1) (gap : r'.gap = false) (started : r'.started = r.started)
  | resync (n : ℕ) (pc : r.pc = .resync n) (pos : 0 < r.next) (next : r.next < r'.next)
      (gap : r'.gap = true) (started : r'.started = r.started)
      (returned : r'.returned = r.returned)

/-- A reader that is about to resynchronise has been lapped. -/
def Reader.Lags (ring : Ring) (r : Reader) : ReaderPc → Prop
  | .copying _ first _ => first = r.next ∨ r.next + ring.blocks ≤ ring.written.length
  | .resync _ => r.next + ring.blocks ≤ ring.written.length
  | _ => True

variable {ring ring' : Ring} {r r' : Reader}

lemma Reader.Turns.of_turn (r : Reader) (ring : Ring) (n : ℕ) : r.Turns (r.turn ring n) := by
  have haim : r.Turns (r.aim ring.latest) := by
    rw [Reader.aim]
    split_ifs with hzero
    · have hpos : 0 < r.start ring.latest := lt_of_lt_of_le Nat.zero_lt_one (le_max_right _ _)
      exact .start hzero.1 hpos.ne' rfl rfl rfl
    · exact .same rfl rfl rfl rfl
  have hpc : ∀ r' : Reader, r'.next = (r.aim ring.latest).next →
      r'.gap = (r.aim ring.latest).gap → r'.started = (r.aim ring.latest).started →
      r'.returned = (r.aim ring.latest).returned → r.Turns r' := by
    intro r' hnext hgap hstarted hreturned
    cases haim with
    | same h₁ h₂ h₃ h₄ =>
        exact .same (hnext.trans h₁) (hgap.trans h₂) (hstarted.trans h₃) (hreturned.trans h₄)
    | start h₀ h₁ h₂ h₃ h₄ =>
        refine .start h₀ (hnext ▸ h₁) ?_ (hgap.trans h₃) (hreturned.trans h₄)
        rw [hstarted, hnext, h₂]
    | block w h₀ _ h₂ =>
        have hlength := congrArg List.length h₂
        have haimed : (r.aim ring.latest).returned = r.returned := by
          rw [Reader.aim]
          split_ifs <;> rfl
        rw [haimed, List.length_append, List.length_singleton] at hlength
        omega
    | resync m h₀ h₁ h₂ =>
        have haimed : (r.aim ring.latest).next = r.next := by
          rw [Reader.aim, if_neg (by omega)]
        omega
  rw [Reader.turn]
  split_ifs
  · exact hpc _ rfl rfl rfl rfl
  · exact hpc _ rfl rfl rfl rfl
  · exact hpc _ rfl rfl rfl rfl

/-- **Every load is one of these.** -/
lemma Reader.Turns.of_load (hc : r.Copies ring r.pc) (hr : ring.Holds)
    (hs : r.load ring = some r') : r.Turns r' := by
  rw [Reader.load] at hs
  cases hpc : r.pc with
  | idle =>
      rw [hpc] at hs
      cases hs
  | latest n =>
      rw [hpc] at hs
      cases n with
      | zero =>
          cases hs
          exact .same rfl rfl rfl rfl
      | succ n =>
          rw [Option.some.injEq] at hs
          subst hs
          exact .of_turn r ring n
  | first n =>
      rw [hpc] at hs
      cases hs
      exact .same rfl rfl rfl rfl
  | copying n first todo =>
      rw [hpc] at hs hc
      obtain ⟨hpos, -, -, done, hall, hcopied⟩ := hc
      cases todo with
      | cons p todo =>
          cases hs
          exact .same rfl rfl rfl rfl
      | nil =>
          rw [List.append_nil] at hall
          subst hall
          dsimp only at hs
          split_ifs at hs with hvalid
          · obtain ⟨w, -, hdecode⟩ := hr.decode hvalid.1 hvalid.2 hpos hcopied
            rw [hdecode] at hs
            cases hs
            exact .block w hpos rfl rfl rfl rfl rfl
          · cases hs
            exact .same rfl rfl rfl rfl
  | resync n =>
      rw [hpc] at hs hc
      cases hs
      obtain ⟨hpos, hbehind⟩ := hc
      refine .resync n hpc hpos ?_ rfl rfl rfl
      show r.next < max (ring.latest + 1 - r.latency) 1
      omega

lemma Reader.Lags.advances {pc : ReaderPc} (h : r.Lags ring pc) (ha : ring.Advances ring') :
    r.Lags ring' pc := by
  obtain ⟨more, hmore⟩ := ha.written
  have hlength : ring.written.length ≤ ring'.written.length := by
    rw [hmore, List.length_append]
    omega
  have hblocks := ha.blocks
  cases pc with
  | copying n first todo =>
      rcases h with h | h
      · exact Or.inl h
      · exact Or.inr (by omega)
  | resync n =>
      have h : r.next + ring.blocks ≤ ring.written.length := h
      show r.next + ring'.blocks ≤ ring'.written.length
      omega
  | _ => trivial

/-- A reader resynchronises only if it has been lapped. -/
lemma Reader.Lags.load (h : r.Lags ring r.pc) (hc : r.Copies ring r.pc) (hr : ring.Holds)
    (hs : r.load ring = some r') : r'.Lags ring r'.pc := by
  rw [Reader.load] at hs
  cases hpc : r.pc with
  | idle =>
      rw [hpc] at hs
      cases hs
  | latest n =>
      rw [hpc] at hs
      cases n with
      | zero =>
          cases hs
          trivial
      | succ n =>
          rw [Option.some.injEq] at hs
          subst hs
          rw [Reader.turn]
          split_ifs with hnone hnear
          · trivial
          · trivial
          · have hlatest := hr.latest_le
            show (r.aim ring.latest).next + ring.blocks ≤ ring.written.length
            omega
  | first n =>
      rw [hpc] at hs hc
      cases hs
      by_cases hsequence : (ring.cell r.next).sequence = r.next
      · exact Or.inl hsequence
      · exact Or.inr (hr.lapped hc.1 hc.2 hsequence)
  | copying n first todo =>
      rw [hpc] at hs hc h
      obtain ⟨hpos, hle, -, done, hall, hcopied⟩ := hc
      cases todo with
      | cons p todo =>
          cases hs
          exact h
      | nil =>
          rw [List.append_nil] at hall
          subst hall
          dsimp only at hs
          split_ifs at hs with hvalid
          · obtain ⟨w, -, hdecode⟩ := hr.decode hvalid.1 hvalid.2 hpos hcopied
            rw [hdecode] at hs
            cases hs
            trivial
          · cases hs
            rcases h with h | h
            · exact hr.lapped hpos hle fun h0 => hvalid ⟨h, h0⟩
            · exact h
  | resync n =>
      rw [hpc] at hs
      cases hs
      trivial

/-! ### The track -/

/-- The block of a read that has come from a writer; the block of silence has cursor 0. -/
def RecordedRead.heard (x : RecordedRead) : Option Block := x.result.filter fun b => b.cursor ≠ 0

namespace Recording

/-- The blocks of a writer that have been returned. -/
def blocksOf (t : Recording) (e : ℕ) : List Block :=
  (t.reads.filter fun x => x.loaded = e).filterMap RecordedRead.heard

/-- The cursor that follows the last block of a writer, or the first one that was asked for on
its ring. -/
def expected (t : Recording) (e : ℕ) : ℕ :=
  match (t.blocksOf e).getLast? with
  | some b => b.cursor + 1
  | none => t.reader.started.getD 0

/-- The writer of an epoch has begun the block that takes the place of a cursor. -/
def Lapped (t : Recording) (e cursor : ℕ) : Prop :=
  cursor + (t.rings e).blocks ≤ (t.rings e).written.length

/-- The source takes the ring of the table over only with no gap pending. -/
def Clear (t : Recording) (l : RecordingLabel) : Prop :=
  ∀ epoch leases, l = .tryLock true → t.pc = .loaded epoch leases → t.current ≠ none →
    t.epoch = epoch → t.reader.gap = false

/-- **The invariant of the cursor**: it is the expected one, or a gap is pending and the
expected one has been lapped. -/
structure Flagged (t : Recording) : Prop where
  older : ∀ x ∈ t.reads, x.heard ≠ none → x.loaded ≤ t.source
  lags : t.reader.Lags (t.rings t.ring) t.reader.pc
  unstarted : t.reader.next = 0 → t.reader.gap = false ∧ t.blocksOf t.source = []
  next : t.reader.next ≠ 0 →
    Reader.Continues (t.expected t.source) t.reader.next t.reader.gap
  lapped : t.reader.gap = true → t.Lapped t.source (t.expected t.source)

/-- The epoch that a read has loaded is not the one it reads, and neither is ahead of the
table. -/
structure Ahead (t : Recording) : Prop where
  source : t.source ≤ t.epoch
  loaded : ∀ epoch leases, t.pc = .loaded epoch leases → epoch ≠ t.source

variable {t t' : Recording}

lemma blocksOf_finish (t : Recording) (epoch : ℕ) (leases : List ℕ) (result : Option Block)
    (e : ℕ) : (t.finish epoch leases result).blocksOf e = t.blocksOf e ++
      if epoch = e then (RecordedRead.heard ⟨epoch, leases, result⟩).toList else [] := by
  have happend : (t.finish epoch leases result).blocksOf e = t.blocksOf e ++
      ([(⟨epoch, leases, result⟩ : RecordedRead)].filter fun x => x.loaded = e).filterMap
        RecordedRead.heard := by
    rw [blocksOf, blocksOf, ← List.filterMap_append, ← List.filter_append]
    rfl
  rw [happend]
  congr 1
  split_ifs with he
  · rw [List.filter_cons_of_pos (by simpa using he), List.filter_nil]
    cases hheard : RecordedRead.heard ⟨epoch, leases, result⟩ with
    | none => rw [List.filterMap_cons_none hheard, List.filterMap_nil, Option.toList_none]
    | some b => rw [List.filterMap_cons_some hheard, List.filterMap_nil, Option.toList_some]
  · rw [List.filter_cons_of_neg (by simpa using he), List.filter_nil, List.filterMap_nil]

/-- A writer that no block has come from. -/
lemma blocksOf_eq_nil {e : ℕ} (h : ∀ x ∈ t.reads, x.heard ≠ none → x.loaded ≠ e) :
    t.blocksOf e = [] := by
  rw [blocksOf, List.filterMap_eq_nil_iff]
  intro x hx
  obtain ⟨hx, he⟩ := List.mem_filter.mp hx
  by_contra h0
  exact h x hx h0 (of_decide_eq_true he)

/-- The cursor depends on the reader, the reads and the blocks that have been written. -/
lemma Flagged.of_rings (h : t.Flagged) (hring : t'.ring = t.ring) (hsource : t'.source = t.source)
    (hreader : t'.reader = t.reader) (hreads : t'.reads = t.reads)
    (hrings : ∀ e, (t.rings e).Advances (t'.rings e)) : t'.Flagged := by
  have hblocks : ∀ e, t'.blocksOf e = t.blocksOf e := by
    intro e
    rw [blocksOf, hreads, ← blocksOf]
  have hexpected : ∀ e, t'.expected e = t.expected e := by
    intro e
    rw [expected, expected, hblocks, hreader]
  refine ⟨?_, ?_, ?_, ?_, fun hgap => ?_⟩
  · rw [hreads, hsource]
    exact h.older
  · rw [hreader, hring]
    exact h.lags.advances (hrings t.ring)
  · rw [hreader, hsource, hblocks]
    exact h.unstarted
  · rw [hreader, hsource, hexpected]
    exact h.next
  · rw [hreader] at hgap
    have hlapped := h.lapped hgap
    obtain ⟨more, hmore⟩ := (hrings t.source).written
    rw [Lapped] at hlapped
    rw [hsource, hexpected, Lapped, (hrings t.source).blocks, hmore, List.length_append]
    omega

/-- A read that returns no block of a writer. -/
lemma Flagged.finish (h : t.Flagged) {epoch : ℕ} {leases : List ℕ} {result : Option Block}
    (hsilent : RecordedRead.heard ⟨epoch, leases, result⟩ = none) :
    (t.finish epoch leases result).Flagged := by
  have hblocks : ∀ e, (t.finish epoch leases result).blocksOf e = t.blocksOf e := by
    intro e
    rw [blocksOf_finish, hsilent, Option.toList_none, ite_self, List.append_nil]
  have hexpected : ∀ e, (t.finish epoch leases result).expected e = t.expected e := by
    intro e
    rw [expected, expected, hblocks]
    rfl
  refine ⟨fun x hx hheard => ?_, h.lags, ?_, ?_, ?_⟩
  · rcases List.mem_append.mp hx with hx | hx
    · exact h.older x hx hheard
    · rw [List.mem_singleton.mp hx] at hheard
      exact absurd hsilent hheard
  · rw [hblocks]
    exact h.unstarted
  · rw [hexpected]
    exact h.next
  · rw [hexpected]
    exact h.lapped

/-- The read settles on silence or on the ring of the source. -/
lemma Flagged.settle (h : t.Flagged) (epoch : ℕ) (leases : List ℕ) :
    (t.settle epoch leases).Flagged := by
  rw [Recording.settle]
  split_ifs
  · exact h.finish rfl
  · exact ⟨h.older, trivial, h.unstarted, h.next, h.lapped⟩

/-- **A ring is taken over** with no gap pending. -/
lemma Flagged.switch (h : t.Flagged) (ha : t.Ahead) {epoch : ℕ} {leases : List ℕ}
    (hpc : t.pc = .loaded epoch leases) (hidle : t.reader.pc = .idle)
    (hclear : t.current ≠ none → t.epoch = epoch → t.reader.gap = false) :
    (t.switch epoch).Flagged := by
  rw [Recording.switch]
  split
  · next ring hring =>
      split_ifs with hepoch
      · have hgap := hclear (by rw [hring]; exact Option.some_ne_none _) hepoch
        have hsource : t.source < epoch := by
          have hle := ha.source
          have hne := ha.loaded epoch leases hpc
          omega
        refine ⟨fun x hx hheard => ?_, ?_, fun _ => ⟨hgap, ?_⟩, fun h0 => absurd rfl h0,
          fun h0 => ?_⟩
        · exact (h.older x hx hheard).trans hsource.le
        · show Reader.Lags _ _ t.reader.pc
          rw [hidle]
          trivial
        · refine blocksOf_eq_nil fun x hx hheard => ?_
          have hle := h.older x hx hheard
          show x.loaded ≠ epoch
          omega
        · cases hgap.symm.trans h0
      · exact h
  · exact h

/-- What has been returned by a load that ends the read. -/
lemma drop_returned {r r' : Reader} (h : r.Turns r') :
    ((r'.returned.drop r.returned.length).head? = none ∧ r'.returned = r.returned) ∨
      ∃ w, 0 < r.next ∧ r'.next = r.next + 1 ∧ r'.gap = false ∧ r'.started = r.started ∧
        r'.pc = .idle ∧
        (r'.returned.drop r.returned.length).head? = some (Written.block w r.next r.gap) := by
  have hnone : r'.returned = r.returned →
      (r'.returned.drop r.returned.length).head? = none := by
    intro h0
    rw [h0, List.drop_length, List.head?_nil]
  cases h with
  | same _ _ _ h0 => exact Or.inl ⟨hnone h0, h0⟩
  | start _ _ _ _ h0 => exact Or.inl ⟨hnone h0, h0⟩
  | resync _ _ _ _ _ _ h0 => exact Or.inl ⟨hnone h0, h0⟩
  | block w hpos hidle hreturned hnext hgap hstarted =>
      refine Or.inr ⟨w, hpos, hnext, hgap, hstarted, hidle, ?_⟩
      rw [hreturned, List.drop_left, List.head?_cons]

/-- A load that returns no block. -/
lemma Flagged.turn (h : t.Flagged) (hring : t.ring = t.source) {r : Reader}
    (ht : t.reader.Turns r) (hreturned : r.returned = t.reader.returned)
    (hlags : r.Lags (t.rings t.ring) r.pc) : ({ t with reader := r } : Recording).Flagged := by
  have hblocks : ∀ e, ({ t with reader := r } : Recording).blocksOf e = t.blocksOf e :=
    fun _ => rfl
  cases ht with
  | same hnext hgap hstarted =>
      have hexpected : ∀ e, ({ t with reader := r } : Recording).expected e = t.expected e := by
        intro e
        rw [expected, expected, hblocks]
        dsimp only
        rw [hstarted]
      refine ⟨h.older, hlags, ?_, ?_, ?_⟩
      · dsimp only
        rw [hnext, hgap]
        exact h.unstarted
      · rw [hexpected]
        dsimp only
        rw [hnext, hgap]
        exact h.next
      · rw [hexpected]
        dsimp only
        rw [hgap]
        exact h.lapped
  | start hzero hnext hstarted hgap =>
      obtain ⟨hclear, hnil⟩ := h.unstarted hzero
      have hexpected : ({ t with reader := r } : Recording).expected t.source = r.next := by
        rw [expected, hblocks, hnil, List.getLast?_nil]
        dsimp only
        rw [hstarted, Option.getD_some]
      refine ⟨h.older, hlags, fun h0 => absurd h0 hnext, fun _ => ?_, fun h0 => ?_⟩
      · dsimp only
        rw [hexpected, hgap, hclear]
        exact ⟨fun _ => rfl, fun h0 => (nomatch h0)⟩
      · dsimp only at h0
        rw [hgap, hclear] at h0
        cases h0
  | block w _ _ h0 =>
      have hlength := congrArg List.length (hreturned.symm.trans h0)
      rw [List.length_append, List.length_singleton] at hlength
      omega
  | resync n hpc hpos hnext hgap hstarted =>
      have hexpected : ({ t with reader := r } : Recording).expected t.source =
          t.expected t.source := by
        rw [expected, expected, hblocks]
        dsimp only
        rw [hstarted]
      have hcontinues := h.next hpos.ne'
      refine ⟨h.older, hlags, fun h0 => ?_, fun _ => ?_, fun _ => ?_⟩
      · dsimp only at h0
        omega
      · rw [hexpected]
        dsimp only
        refine ⟨fun h0 => ?_, fun _ => ?_⟩
        · cases hgap.symm.trans h0
        · cases hpending : t.reader.gap with
          | false =>
              have hnow := hcontinues.1 hpending
              omega
          | true =>
              have hnow := hcontinues.2 hpending
              omega
      · -- the expected cursor is the one that is given up, or it has been given up before
        show ({ t with reader := r } : Recording).expected t.source + _ ≤ _
        rw [hexpected]
        cases hpending : t.reader.gap with
        | false =>
            have hlapped := h.lags
            rw [hpc, hring, Reader.Lags, hcontinues.1 hpending] at hlapped
            exact hlapped
        | true => exact h.lapped hpending

/-- A block is returned. -/
lemma Flagged.yield (h : t.Flagged) {r : Reader} {w : Written} {leases : List ℕ}
    (hpos : 0 < t.reader.next) (hnext : r.next = t.reader.next + 1) (hgap : r.gap = false)
    (hidle : r.pc = .idle) :
    (({ t with reader := r } : Recording).finish t.source leases
      (some (w.block t.reader.next t.reader.gap))).Flagged := by
  have hheard : RecordedRead.heard ⟨t.source, leases, some (w.block t.reader.next t.reader.gap)⟩ =
      some (w.block t.reader.next t.reader.gap) :=
    Option.filter_eq_some_iff.mpr ⟨rfl, decide_eq_true hpos.ne'⟩
  have hexpected : (({ t with reader := r } : Recording).finish t.source leases
      (some (w.block t.reader.next t.reader.gap))).expected t.source = t.reader.next + 1 := by
    rw [expected, blocksOf_finish, if_pos rfl, hheard, Option.toList_some, List.getLast?_concat]
    rfl
  refine ⟨fun x hx hx' => ?_, ?_, fun h0 => ?_, fun _ => ?_, fun h0 => ?_⟩
  · rcases List.mem_append.mp hx with hx | hx
    · exact h.older x hx hx'
    · rw [List.mem_singleton.mp hx]
      exact le_rfl
  · show Reader.Lags _ _ r.pc
    rw [hidle]
    trivial
  · have h0 : r.next = 0 := h0
    omega
  · show Reader.Continues (Recording.expected _ t.source) r.next r.gap
    rw [hexpected, hnext, hgap]
    exact ⟨fun _ => rfl, fun h0 => (nomatch h0)⟩
  · cases hgap.symm.trans h0

/-- A load of the read of a ring. -/
lemma Flagged.load (h : t.Flagged) (hm : t.Mapped) (hh : t.Heard) {epoch : ℕ} {leases : List ℕ}
    (hpc : t.pc = .reading epoch leases) (hs : t.loadRing epoch leases = some t') :
    t'.Flagged := by
  obtain ⟨r, hr, hs⟩ := Option.map_eq_some_iff.mp hs
  have hholds := hm.holds t.ring
  have hturns := Reader.Turns.of_load hh.copies hholds hr
  have hlags := h.lags.load hh.copies hholds hr
  have hsource : epoch = t.source := by
    have hlistens := hh.listens
    rw [hpc] at hlistens
    exact hlistens.2
  subst hsource
  rcases drop_returned hturns with ⟨hnone, hreturned⟩ | ⟨w, hpos, hnext, hgap, -, hidle, hsome⟩
  · have hflagged := h.turn hh.ring hturns hreturned hlags
    rw [hnone] at hs
    split_ifs at hs
    · rw [← hs]
      exact hflagged.finish rfl
    · rw [← hs]
      exact hflagged
  · rw [hsome, if_pos hidle] at hs
    rw [← hs]
    exact h.yield hpos hnext hgap hidle

/-! ### The steps -/

lemma Ahead.settle (h : t.source ≤ t.epoch) (epoch : ℕ) (leases : List ℕ) :
    (t.settle epoch leases).Ahead := by
  rw [Recording.settle]
  split_ifs
  · exact ⟨h, by rintro _ _ ⟨⟩⟩
  · exact ⟨h, by rintro _ _ ⟨⟩⟩

/-- **What a step adds to the reads**: nothing, silence, or the block of the cursor. -/
lemma reads_step (h : t.Tracks) {l : RecordingLabel} (hs : t.step l = some t') :
    t'.reads = t.reads ∨ ∃ x, t'.reads = t.reads ++ [x] ∧ (x.heard = none ∨
      ∃ w, x.loaded = t.source ∧ 0 < t.reader.next ∧
        x.result = some (Written.block w t.reader.next t.reader.gap)) := by
  have hsettle : ∀ (a : Recording) epoch leases, a.reads = t.reads →
      (a.settle epoch leases).reads = t.reads ∨ ∃ x, (a.settle epoch leases).reads =
        t.reads ++ [x] ∧ (x.heard = none ∨ ∃ w, x.loaded = t.source ∧ 0 < t.reader.next ∧
          x.result = some (Written.block w t.reader.next t.reader.gap)) := by
    intro a epoch leases ha
    rw [Recording.settle]
    split_ifs
    · refine Or.inr ⟨⟨epoch, leases, some a.silence⟩, ?_, Or.inl rfl⟩
      rw [← ha]
      rfl
    · exact Or.inl ha
  have hwriter : ∀ e l, t.onWriter e l = some t' → t'.reads = t.reads := by
    intro e l hs
    obtain ⟨-, _, _, -, ht⟩ := h.mapped.onWriter hs
    rw [ht]
  cases l with
  | claim | enroll | drop | withdraw | map _ | retire =>
      rw [Recording.step] at hs
      split_ifs at hs
      cases hs
      exact Or.inl rfl
  | create ok =>
      rw [Recording.step] at hs
      split_ifs at hs
      · cases hs
        exact Or.inl rfl
      · cases hs
        exact Or.inl rfl
  | write e samples hostTimeNs => exact Or.inl (hwriter e _ hs)
  | discontinuity e => exact Or.inl (hwriter e _ hs)
  | store e => exact Or.inl (hwriter e _ hs)
  | read =>
      rw [Recording.step] at hs
      split_ifs at hs
      · cases hs
        exact Or.inl rfl
      · cases hs
        exact hsettle t _ _ rfl
  | tryLock ok =>
      rw [Recording.step] at hs
      split at hs
      · split_ifs at hs
        · cases hs
          refine hsettle _ _ _ ?_
          rw [Recording.switch]
          split
          · split_ifs <;> rfl
          · rfl
        · cases hs
          exact hsettle t _ _ rfl
      · cases hs
  | load =>
      rw [Recording.step] at hs
      split at hs
      · next epoch leases hpc =>
          obtain ⟨r, hr, hs⟩ := Option.map_eq_some_iff.mp hs
          have hturns := Reader.Turns.of_load h.heard.copies (h.mapped.holds t.ring) hr
          have hlistens := h.heard.listens
          rw [hpc] at hlistens
          subst hs
          split_ifs
          · refine Or.inr ⟨_, rfl, ?_⟩
            rcases drop_returned hturns with ⟨hnone, -⟩ | ⟨w, hpos, -, -, -, -, hsome⟩
            · rw [hnone]
              exact Or.inl rfl
            · exact Or.inr ⟨w, hlistens.2, hpos, hsome⟩
          · exact Or.inl rfl
      · cases hs

/-- A writer takes a step. -/
lemma Flagged.onWriter (h : t.Flagged) (ha : t.Ahead) (hm : t.Mapped) {e : ℕ} {l : WriterLabel}
    (hs : t.onWriter e l = some t') : t'.Flagged ∧ t'.Ahead := by
  obtain ⟨-, ring, w, hadvances, ht⟩ := hm.onWriter hs
  subst ht
  exact ⟨h.of_rings rfl rfl rfl rfl (advances_update hadvances), ⟨ha.source, ha.loaded⟩⟩

/-- The host takes a step, or a ring is mapped. -/
lemma Flagged.of_host (h : t.Flagged) (ha : t.Ahead) (ht : t' = { t with
      writer := t'.writer
      epoch := t'.epoch
      current := t'.current
      retired := t'.retired
      host := t'.host
      leases := t'.leases
      writers := t'.writers }) (hepoch : t.epoch ≤ t'.epoch) : t'.Flagged ∧ t'.Ahead := by
  have hsource : t'.source = t.source := by rw [ht]
  have hpc : t'.pc = t.pc := by rw [ht]
  refine ⟨h.of_rings (by rw [ht]) hsource (by rw [ht]) (by rw [ht]) fun e => ?_, ?_, ?_⟩
  · rw [ht]
    exact Ring.Advances.refl _
  · rw [hsource]
    exact ha.source.trans hepoch
  · rw [hpc, hsource]
    exact ha.loaded

/-- **Every step that takes no ring over with a gap pending keeps the invariant.** -/
lemma Flagged.step (h : t.Flagged) (ha : t.Ahead) (ht : t.Tracks) {l : RecordingLabel}
    (hclear : t.Clear l) (hs : t.step l = some t') : t'.Flagged ∧ t'.Ahead := by
  cases l with
  | claim | enroll | drop | withdraw | retire =>
      rw [Recording.step] at hs
      split_ifs at hs
      cases hs
      exact h.of_host ha rfl le_rfl
  | create ok =>
      rw [Recording.step] at hs
      split_ifs at hs
      · cases hs
        exact h.of_host ha rfl le_rfl
      · cases hs
        exact h.of_host ha rfl (Nat.le_succ _)
  | map e =>
      rw [Recording.step] at hs
      split_ifs at hs
      cases hs
      exact h.of_host ha rfl le_rfl
  | write e samples hostTimeNs => exact h.onWriter ha ht.mapped hs
  | discontinuity e => exact h.onWriter ha ht.mapped hs
  | store e => exact h.onWriter ha ht.mapped hs
  | read =>
      rw [Recording.step] at hs
      split_ifs at hs with _ hnew
      · cases hs
        refine ⟨h.of_rings rfl rfl rfl rfl fun e => Ring.Advances.refl _, ha.source, ?_⟩
        rintro epoch leases h0
        cases h0
        exact hnew.2
      · cases hs
        exact ⟨h.settle _ _, Ahead.settle ha.source _ _⟩
  | tryLock ok =>
      rw [Recording.step] at hs
      split at hs
      · next epoch leases hpc =>
          have hidle : t.reader.pc = .idle := ht.heard.resting fun _ _ h0 => by
            cases hpc.symm.trans h0
          split_ifs at hs with hok hhost
          · cases hs
            subst hok
            have hswitch := h.switch ha hpc hidle (hclear epoch leases rfl hpc)
            refine ⟨hswitch.settle _ _, Ahead.settle ?_ _ _⟩
            rw [Recording.switch]
            split
            · split_ifs with hepoch
              · exact hepoch.ge
              · exact ha.source
            · exact ha.source
          · cases hs
            exact ⟨h.settle _ _, Ahead.settle ha.source _ _⟩
      · cases hs
  | load =>
      rw [Recording.step] at hs
      split at hs
      · next epoch leases hpc =>
          refine ⟨h.load ht.mapped ht.heard hpc hs, ?_⟩
          obtain ⟨r, -, hs⟩ := Option.map_eq_some_iff.mp hs
          subst hs
          split_ifs
          · exact ⟨ha.source, by rintro _ _ ⟨⟩⟩
          · exact ⟨ha.source, ha.loaded⟩
      · cases hs

lemma Flagged.of_new {s : Settings} {latency : ℕ} (h : Recording.new s latency = some t) :
    t.Flagged ∧ t.Ahead := by
  obtain ⟨ring, -, h⟩ := Option.bind_eq_some_iff.mp h
  cases h
  exact ⟨⟨fun x hx => (nomatch hx), trivial, fun _ => ⟨rfl, rfl⟩, fun h0 => absurd rfl h0,
    fun h0 => (nomatch h0)⟩, le_rfl, fun _ _ h0 => (nomatch h0)⟩

/-- The flag of the next block. -/
lemma Flagged.gap_iff (h : t.Flagged) (hpos : 0 < t.reader.next) :
    t.reader.gap = true ↔ ∃ c, t.expected t.source ≤ c ∧ c < t.reader.next ∧
      t.Lapped t.source c := by
  have hcontinues := h.next hpos.ne'
  constructor
  · intro hgap
    exact ⟨_, le_rfl, hcontinues.2 hgap, h.lapped hgap⟩
  · rintro ⟨c, hle, hlt, -⟩
    cases hgap : t.reader.gap with
    | false =>
        have hnext := hcontinues.1 hgap
        omega
    | true => rfl

end Recording

/-- **A gap means that the reader was lapped**, as long as no ring is taken over with a gap
pending. Whenever a read returns a block of a writer, the block has a gap if and only if a
cursor of that writer's ring was skipped, between the last block of the writer (or the first
cursor that was asked for on its ring) and this one, because the writer had lapped the
reader. -/
theorem gaps_truthful {s : Settings} {latency : ℕ} {t₀ t t' : Recording}
    (h₀ : Recording.new s latency = some t₀)
    (h : Reaches Recording.step Recording.Clear t₀ t) {l : RecordingLabel}
    (hs : t.step l = some t') {x : RecordedRead} (hx : t'.reads = t.reads ++ [x]) {b : Block}
    (hb : x.result = some b) (hcursor : b.cursor ≠ 0) :
    b.gap = true ↔
      ∃ c, t.expected x.loaded ≤ c ∧ c < b.cursor ∧ t.Lapped x.loaded c := by
  have hall : t.Tracks ∧ t.Flagged ∧ t.Ahead := by
    refine h.invariant (P := fun t => t.Tracks ∧ t.Flagged ∧ t.Ahead)
      ⟨Recording.Tracks.of_new h₀, Recording.Flagged.of_new h₀⟩ fun a l b hp hc hs => ?_
    exact ⟨hp.1.step hs, hp.2.1.step hp.2.2 hp.1 hc hs⟩
  obtain ⟨htracks, hflagged, -⟩ := hall
  have hread := Recording.reads_step htracks hs
  rw [hx] at hread
  rcases hread with hread | ⟨y, hy, hread⟩
  · have hlength := congrArg List.length hread
    rw [List.length_append, List.length_singleton] at hlength
    omega
  · have hxy : x = y := List.singleton_inj.mp (List.append_cancel_left hy)
    subst hxy
    rcases hread with hsilent | ⟨w, hloaded, hpos, hresult⟩
    · have hheard : x.heard = some b :=
        Option.filter_eq_some_iff.mpr ⟨hb, decide_eq_true hcursor⟩
      cases hsilent.symm.trans hheard
    · cases hb.symm.trans hresult
      rw [hloaded]
      exact hflagged.gap_iff hpos

/-! ### Runs -/

/-- A writer writes a block of one byte. -/
def recordByte (e : ℕ) (b : UInt8) : List RecordingLabel :=
  .write e [b] 0 :: List.replicate 12 (.store e)

/-- A writer is admitted and maps its ring. -/
def admitted (e : ℕ) : List RecordingLabel := [.claim, .create true, .enroll, .map e]

/-- No ring is taken over with a gap pending. -/
def clearOnly (t : Recording) (l : RecordingLabel) : Bool :=
  decide (l = .tryLock true → t.reader.gap = false)

/-- One block of the first writer, then the second, which laps the source after its first
block; all but the last load. -/
def overrun : List RecordingLabel := List.flatten
  [admitted 1, recordByte 1 1, [.read, .tryLock true], List.replicate 13 .load,
    [.drop, .withdraw, .retire], admitted 2, recordByte 2 1, [.read, .tryLock true],
    List.replicate 13 .load, recordByte 2 2, recordByte 2 3, recordByte 2 4, [.read],
    List.replicate 14 .load]

theorem gaps_truthful_overrun :
    let t := playIn Recording.step clearOnly tinyRecording overrun
    ∃ t' x b, t.step .load = some t' ∧ t'.reads = t.reads ++ [x] ∧ x.result = some b ∧
      (t.reads.map fun x => (x.loaded, x.result.map fun b => (b.cursor, b.gap))) =
        [(1, some (1, false)), (2, some (1, false))] ∧
      (x.loaded, b.cursor, b.gap) = (2, 4, true) ∧
      (b.gap = true ↔
        ∃ c, t.expected x.loaded ≤ c ∧ c < b.cursor ∧ t.Lapped x.loaded c) := by
  intro t
  have hclear : ∀ a l, clearOnly a l = true → Recording.Clear a l := by
    intro a l h epoch leases hl _ _ _
    rw [clearOnly, decide_eq_true_eq] at h
    exact h hl
  have hreach : Reaches Recording.step Recording.Clear tinyRecording t :=
    Reaches.of_playIn hclear _ _
  have hstep : t.step .load = some ((t.step .load).getD t) := by
    have hsome : (t.step .load).isSome = true := by decide +kernel
    obtain ⟨t', ht'⟩ := Option.isSome_iff_exists.mp hsome
    rw [ht', Option.getD_some]
  have hreads : ((t.step .load).getD t).reads = t.reads ++
      [⟨2, [2], some ⟨4, 3, 0, 1, tinyFormat, 1, false, false, true, [4]⟩⟩] := by decide +kernel
  exact ⟨_, _, _, hstep, hreads, rfl, by decide +kernel, by decide +kernel,
    gaps_truthful new_tiny hreach hstep hreads rfl (by decide)⟩

/-- A track of `tinySettings` whose source reads with no latency. -/
def promptRecording : Recording := { tinyRecording with reader := Reader.new ⟨tinyFormat, 1, 2⟩ 0 }

lemma new_prompt : Recording.new tinySettings 0 = some promptRecording := by
  rw [Recording.new, create_tiny]
  rfl

/-- The first writer laps the source, which finds no block after that; the second writes a
block before the first read of its ring, and one after it; all but the last load. -/
def carried : List RecordingLabel := List.flatten
  [admitted 1, recordByte 1 1, [.read, .tryLock true, .load], recordByte 1 2, recordByte 1 3,
    recordByte 1 4, recordByte 1 5, [.read, .load, .load, .load], [.drop, .withdraw, .retire],
    admitted 2, recordByte 2 1, [.read, .tryLock true, .load], recordByte 2 2, [.read],
    List.replicate 12 .load]

/-- The block that the source then reads is the one it first asked for, and has a gap. -/
theorem gap_carried_over :
    ¬ ∀ (s : Settings) (latency : ℕ) (t₀ t t' : Recording) (l : RecordingLabel)
      (x : RecordedRead) (b : Block), Recording.new s latency = some t₀ →
      Reaches Recording.step Always t₀ t → t.step l = some t' → t'.reads = t.reads ++ [x] →
      x.result = some b → b.cursor ≠ 0 →
      (b.gap = true ↔
        ∃ c, t.expected x.loaded ≤ c ∧ c < b.cursor ∧ t.Lapped x.loaded c) := by
  intro h
  have hreach := Reaches.of_play Recording.step promptRecording carried
  generalize ht : play Recording.step promptRecording carried = t at hreach
  have hsome : (t.step .load).isSome = true := by
    rw [← ht]
    decide +kernel
  obtain ⟨t', ht'⟩ := Option.isSome_iff_exists.mp hsome
  have hreads : t'.reads = t.reads ++
      [⟨2, [2], some ⟨2, 1, 0, 1, tinyFormat, 1, false, false, true, [2]⟩⟩] := by
    have hget : ((t.step .load).getD t).reads = t.reads ++
        [⟨2, [2], some ⟨2, 1, 0, 1, tinyFormat, 1, false, false, true, [2]⟩⟩] := by
      rw [← ht]
      decide +kernel
    rw [ht', Option.getD_some] at hget
    exact hget
  have hexpected : t.expected 2 = 2 := by
    rw [← ht]
    decide +kernel
  obtain ⟨c, hle, hlt, -⟩ :=
    (h tinySettings 0 _ t t' .load _ _ new_prompt hreach ht' hreads rfl (by decide)).mp rfl
  have hle : t.expected 2 ≤ c := hle
  have hlt : c < 2 := hlt
  omega

end Jackstay.Audio
