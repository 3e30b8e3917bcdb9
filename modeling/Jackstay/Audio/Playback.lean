import Mathlib.Data.List.Chain
import Mathlib.Data.List.GetD
import Mathlib.Tactic.NormNum
import Jackstay.Audio.Writing

/-!
Playback: a writer and any number of readers of one ring.

A copy is validated by the sequence word, so that it is the block of its cursor. A copy
that is not validated has been overtaken: the writer has begun the block that is one depth
ahead, and the reader resynchronises from a write cursor that is at most one behind. The
latency of a reader is below the depth of the ring, so that it moves forward.

* `Reader.Copies`: what a reader knows in the middle of a read.
* `Reader.Follows`: how the cursors of a reader go on from block to block.
* `faithful_playback`: every block a reader returns is the block of its cursor, cursors
  increase, and a gap is flagged exactly where cursors have been skipped.
-/

namespace Jackstay.Audio

open Seqlock Transition

namespace Reader

/-- **What a reader knows** in the middle of a read. -/
def Copies (ring : Ring) (r : Reader) : ReaderPc → Prop
  | .first _ => 0 < r.next ∧ r.next ≤ ring.latest
  | .copying _ first todo => 0 < r.next ∧ r.next ≤ ring.latest ∧
      (first = r.next ∨ r.next + r.latency ≤ ring.latest) ∧
      ∃ done, parts ring.payloadLen = done ++ todo ∧
        Copied (ring.cell r.next) first r.payload done
  | .resync _ => 0 < r.next ∧ r.next + r.latency ≤ ring.latest
  | _ => True

/-- The cursor that follows the last block, or the first one that was asked for. -/
def expected (r : Reader) : ℕ :=
  match r.returned.getLast? with
  | some b => b.cursor + 1
  | none => r.started.getD 0

/-- The block continues at the expected cursor, or it is flagged. -/
def Continues (expected : ℕ) (cursor : ℕ) (gap : Bool) : Prop :=
  (gap = false → cursor = expected) ∧ (gap = true → expected < cursor)

/-- **How the cursors of a reader go on.** -/
structure Follows (ring : Ring) (r : Reader) : Prop where
  latency : r.latency < ring.blocks
  unstarted : r.next = 0 → r.returned = [] ∧ r.gap = false ∧ r.started = none
  started : r.next ≠ 0 → ∃ first, r.started = some first
  next : r.next ≠ 0 → Continues r.expected r.next r.gap
  bounded : r.next ≤ ring.latest + 1
  written : ∀ b ∈ r.returned, ∃ w, Logged ring.written b.cursor w ∧ b = w.block b.cursor b.gap
  below : ∀ b ∈ r.returned, b.cursor < r.next
  sorted : r.returned.Pairwise fun a b => a.cursor < b.cursor
  chained : r.returned.IsChain fun a b => Continues (a.cursor + 1) b.cursor b.gap
  first : ∀ b, r.returned.head? = some b →
    ∃ first, r.started = some first ∧ Continues first b.cursor b.gap
  resyncs : ∀ x ∈ r.resyncs, x.before < x.after ∧ x.after ≤ x.latest + 1 ∧ x.latest ≤ ring.latest

end Reader

variable {ring ring' : Ring} {r r' : Reader}

/-! ### The writer goes on -/

lemma Ring.Advances.cell_copied (h : ring.Advances ring') {cursor first : ℕ} {copy : Part → ℕ}
    {done : List Part} (hc : Copied (ring.cell cursor) first copy done) :
    Copied (ring'.cell cursor) first copy done := by
  have hindex : ring'.index cursor = ring.index cursor := by
    rw [Ring.index, Ring.index, h.blocks]
  rw [Ring.cell] at hc ⊢
  rw [hindex]
  rcases h.cells with hcells | ⟨k, c, hw, hcells⟩
  · rw [hcells]
    exact hc
  · rw [hcells]
    exact hc.update hw

lemma Reader.Copies.advances {pc : ReaderPc} (h : r.Copies ring pc) (ha : ring.Advances ring') :
    r.Copies ring' pc := by
  have hlatest := ha.latest
  cases pc with
  | first n => exact ⟨h.1, by have := h.2; omega⟩
  | copying n first todo =>
      obtain ⟨hpos, hle, hfirst, done, hall, hcopied⟩ := h
      refine ⟨hpos, hle.trans hlatest, ?_, done, ?_, ha.cell_copied hcopied⟩
      · rcases hfirst with hfirst | hfirst
        · exact Or.inl hfirst
        · exact Or.inr (hfirst.trans hlatest)
      · rw [ha.payloadLen]
        exact hall
  | resync n => exact ⟨h.1, h.2.trans hlatest⟩
  | _ => trivial

lemma Reader.Follows.advances (h : r.Follows ring) (ha : ring.Advances ring') :
    r.Follows ring' := by
  obtain ⟨more, hwritten⟩ := ha.written
  have hlatest := ha.latest
  refine ⟨ha.blocks ▸ h.latency, h.unstarted, h.started, h.next, ?_, fun b hb => ?_, h.below,
    h.sorted, h.chained, h.first, fun x hx => ?_⟩
  · have hbounded := h.bounded
    omega
  · obtain ⟨w, hlog, hw⟩ := h.written b hb
    refine ⟨w, ?_, hw⟩
    rw [hwritten]
    exact hlog.append more
  · obtain ⟨hlt, hle, hx⟩ := h.resyncs x hx
    exact ⟨hlt, hle, hx.trans hlatest⟩

/-! ### A copy -/

/-- **A block whose sequence word has moved on is a depth behind the writer**, which has begun
the block that takes its place. -/
lemma Ring.Holds.lapped (h : ring.Holds) {cursor : ℕ} (hpos : 0 < cursor)
    (hle : cursor ≤ ring.latest) (hne : (ring.cell cursor).sequence ≠ cursor) :
    cursor + ring.blocks ≤ ring.written.length := by
  have hreached := h.reached cursor hpos (hle.trans h.latest_le)
  have hbegun : cursor ≠ (ring.cell cursor).begun := by
    intro h0
    refine hne ?_
    have hcomplete := h.complete (ring.index cursor)
    rw [← Ring.cell, ← h0] at hcomplete
    exact hcomplete hle
  have hplaced := h.placed (ring.index cursor)
  rw [← Ring.cell] at hplaced
  have hblocks := Ring.add_blocks_le hpos (lt_of_le_of_ne hreached hbegun)
    (hplaced (by omega)).symm
  have hlast := h.begun_le (ring.index cursor)
  rw [← Ring.cell] at hlast
  omega

lemma Ring.Holds.overtaken (h : ring.Holds) {cursor : ℕ} (hpos : 0 < cursor)
    (hle : cursor ≤ ring.latest) (hne : (ring.cell cursor).sequence ≠ cursor) :
    cursor + ring.blocks ≤ ring.latest + 1 := by
  have hlapped := h.lapped hpos hle hne
  have hahead := h.ahead
  omega

/-- The bytes of a copied block are its samples. -/
lemma samples_eq {w : Written} {payload : Part → ℕ}
    (h : ∀ p ∈ parts w.samples.length, payload p = w.words p) :
    ((List.range w.samples.length).map fun i => UInt8.ofNat (payload (.byte i))) = w.samples := by
  refine List.ext_getElem (by simp) fun i hi hi' => ?_
  have hbyte := h (.byte i) (List.mem_append_right _ (List.mem_map.mpr
    ⟨i, List.mem_range.mpr hi', rfl⟩))
  simp only [List.getElem_map, List.getElem_range, hbyte, Written.words]
  rw [List.getD_eq_getElem _ _ hi', UInt8.ofNat_toNat]

/-- **A validated copy decodes to the block of its cursor.** -/
lemma Ring.Holds.decode (h : ring.Holds) {first : ℕ} (hfirst : first = r.next)
    (hsecond : (ring.cell r.next).sequence = r.next) (hpos : 0 < r.next)
    (hcopied : Copied (ring.cell r.next) first r.payload (parts ring.payloadLen)) :
    ∃ w, Logged ring.written r.next w ∧
      r.decode ring.payloadLen = some (w.block r.next r.gap) := by
  subst hfirst
  obtain ⟨-, ⟨w, hlog, hwords⟩, hcopy⟩ := hcopied.validated (h.sound _) (by omega) hsecond
  have hwell := h.wellFormed w hlog.mem
  have hpayload : ∀ p ∈ parts w.samples.length, r.payload p = w.words p := by
    intro p hp
    rw [hcopy p ?_, hwords p hp]
    rcases List.mem_append.mp hp with hp | hp
    · exact List.mem_append_left _ hp
    · refine List.mem_append_right _ ?_
      obtain ⟨i, hi, rfl⟩ := List.mem_map.mp hp
      have hfits := hwell.fits
      have hi := List.mem_range.mp hi
      exact List.mem_map.mpr ⟨i, List.mem_range.mpr (by omega), rfl⟩
  have hfield : ∀ p, (∀ i, p ≠ .byte i) → r.payload p = w.words p := by
    intro p hp
    refine hpayload p (List.mem_append_left _ ?_)
    cases p with
    | byte i => exact absurd rfl (hp i)
    | _ => decide
  refine ⟨w, hlog, ?_⟩
  have hformat : Format.fromBlock (r.payload .rate) (r.payload .channels) (r.payload .layout)
      (r.payload .sample) = some w.format := by
    rw [hfield .rate (by simp), hfield .channels (by simp), hfield .layout (by simp),
      hfield .sample (by simp)]
    exact Format.fromBlock_code hwell.valid
  have hframes : r.payload .frames = w.frames := hfield .frames (by simp)
  have hfits : 0 < w.frames ∧ w.frames * w.format.frameBytes ≤ ring.payloadLen :=
    ⟨hwell.pos, by rw [hwell.frames]; exact hwell.fits⟩
  rw [Reader.decode, hformat, Option.bind_eq_bind, Option.bind_some]
  simp only [hframes]
  rw [if_pos hfits, hwell.frames, samples_eq hpayload, hfield .samplePosition (by simp),
    hfield .hostTimeNs (by simp), hfield .generation (by simp), hfield .flags (by simp)]
  rfl

/-! ### The loads of a reader -/

/-- What a reader knows after its next load. -/
lemma Reader.Copies.load (h : r.Copies ring r.pc) (hr : ring.Holds) (hl : r.latency < ring.blocks)
    (hs : r.load ring = some r') : r'.Copies ring r'.pc := by
  rw [Reader.load] at hs
  cases hpc : r.pc with
  | idle =>
      rw [hpc] at hs
      cases hs
  | latest n =>
      rw [hpc] at hs
      cases n with
      | zero =>
          cases hs
          trivial
      | succ n =>
          rw [Option.some.injEq] at hs
          subst hs
          have hlatency : (r.aim ring.latest).latency = r.latency := by
            rw [Reader.aim]
            split_ifs <;> rfl
          rw [Reader.turn]
          split_ifs with hnone hnear
          · trivial
          · exact ⟨by show 0 < (r.aim ring.latest).next; omega,
              by show (r.aim ring.latest).next ≤ _; omega⟩
          · refine ⟨by show 0 < (r.aim ring.latest).next; omega, ?_⟩
            show (r.aim ring.latest).next + (r.aim ring.latest).latency ≤ ring.latest
            omega
  | first n =>
      rw [hpc] at hs h
      cases hs
      obtain ⟨hpos, hle⟩ := h
      refine ⟨hpos, hle, ?_, [], rfl, Copied.load_sequence (hr.sound _) _⟩
      by_cases hsequence : (ring.cell r.next).sequence = r.next
      · exact Or.inl hsequence
      · have hovertaken := hr.overtaken hpos hle hsequence
        exact Or.inr (show r.next + r.latency ≤ ring.latest by omega)
  | copying n first todo =>
      rw [hpc] at hs h
      obtain ⟨hpos, hle, hfirst, done, hall, hcopied⟩ := h
      cases todo with
      | cons p todo =>
          cases hs
          refine ⟨hpos, hle, hfirst, done ++ [p], ?_, hcopied.load p⟩
          rw [hall, List.append_assoc]
          rfl
      | nil =>
          rw [List.append_nil] at hall
          subst hall
          dsimp only at hs
          split_ifs at hs with hvalid
          · obtain ⟨w, hlog, hdecode⟩ := hr.decode hvalid.1 hvalid.2 hpos hcopied
            rw [hdecode] at hs
            cases hs
            trivial
          · cases hs
            refine ⟨hpos, ?_⟩
            rcases hfirst with hfirst | hfirst
            · have hovertaken := hr.overtaken hpos hle fun h0 => hvalid ⟨hfirst, h0⟩
              show r.next + r.latency ≤ ring.latest
              omega
            · exact hfirst
  | resync n =>
      rw [hpc] at hs
      cases hs
      trivial

/-- What a load adds to what has been returned. -/
lemma Reader.Copies.returned (h : r.Copies ring r.pc) (hr : ring.Holds)
    (hs : r.load ring = some r') : r'.latency = r.latency ∧ (r'.returned = r.returned ∨
      ∃ w, Logged ring.written r.next w ∧
        r'.returned = r.returned ++ [w.block r.next r.gap]) := by
  rw [Reader.load] at hs
  cases hpc : r.pc with
  | idle =>
      rw [hpc] at hs
      cases hs
  | latest n =>
      rw [hpc] at hs
      have haim : (r.aim ring.latest).latency = r.latency ∧
          (r.aim ring.latest).returned = r.returned := by
        rw [Reader.aim]
        split_ifs <;> exact ⟨rfl, rfl⟩
      cases n with
      | zero =>
          cases hs
          exact ⟨rfl, Or.inl rfl⟩
      | succ n =>
          rw [Option.some.injEq] at hs
          subst hs
          rw [Reader.turn]
          split_ifs
          all_goals exact ⟨haim.1, Or.inl haim.2⟩
  | first n =>
      rw [hpc] at hs
      cases hs
      exact ⟨rfl, Or.inl rfl⟩
  | copying n first todo =>
      rw [hpc] at hs h
      obtain ⟨hpos, hle, hfirst, done, hall, hcopied⟩ := h
      cases todo with
      | cons p todo =>
          cases hs
          exact ⟨rfl, Or.inl rfl⟩
      | nil =>
          rw [List.append_nil] at hall
          subst hall
          dsimp only at hs
          split_ifs at hs with hvalid
          · obtain ⟨w, hlog, hdecode⟩ := hr.decode hvalid.1 hvalid.2 hpos hcopied
            rw [hdecode] at hs
            cases hs
            exact ⟨rfl, Or.inr ⟨w, hlog, rfl⟩⟩
          · cases hs
            exact ⟨rfl, Or.inl rfl⟩
  | resync n =>
      rw [hpc] at hs
      cases hs
      exact ⟨rfl, Or.inl rfl⟩

/-- A reader that picks its first cursor. -/
lemma Reader.Follows.aim (h : r.Follows ring) : (r.aim ring.latest).Follows ring := by
  rw [Reader.aim]
  split_ifs with hzero
  · obtain ⟨hreturned, hgap, hstarted⟩ := h.unstarted hzero.1
    have hexpected : ({ r with
        next := r.start ring.latest
        started := some (r.start ring.latest) } : Reader).expected = r.start ring.latest := by
      rw [Reader.expected, hreturned]
      rfl
    have hstart : 0 < r.start ring.latest := lt_of_lt_of_le Nat.zero_lt_one (le_max_right _ _)
    refine ⟨h.latency, fun h0 => ?_, fun _ => ⟨_, rfl⟩, fun _ => ?_, ?_, h.written, ?_, h.sorted,
      h.chained, ?_, h.resyncs⟩
    · exact absurd h0 (by show r.start ring.latest ≠ 0; omega)
    · rw [hexpected, hgap]
      exact ⟨fun _ => rfl, fun h0 => (nomatch h0)⟩
    · show max (ring.latest + 1 - r.latency) 1 ≤ ring.latest + 1
      omega
    · rw [hreturned]
      exact fun b hb => (nomatch hb)
    · rw [hreturned]
      exact fun b hb => (nomatch hb)
  · exact h

/-- A block is returned. -/
lemma Reader.Follows.yieldBlock (h : r.Follows ring) (hpos : 0 < r.next)
    (hle : r.next ≤ ring.latest) {w : Written} (hlog : Logged ring.written r.next w) :
    (r.yieldBlock (w.block r.next r.gap)).Follows ring := by
  have hnext := h.next (by omega)
  have hlast : (r.yieldBlock (w.block r.next r.gap)).expected = r.next + 1 := by
    rw [Reader.expected]
    show (match (r.returned ++ [w.block r.next r.gap]).getLast? with
      | some b => b.cursor + 1
      | none => _) = _
    rw [List.getLast?_concat]
    rfl
  obtain ⟨first, hstarted⟩ := h.started (by omega)
  refine ⟨h.latency, fun h0 => (nomatch h0), fun _ => ⟨first, hstarted⟩, fun _ => ?_, ?_, ?_, ?_,
    ?_, ?_, ?_, h.resyncs⟩
  · rw [hlast]
    exact ⟨fun _ => rfl, fun h0 => (nomatch h0)⟩
  · show r.next + 1 ≤ ring.latest + 1
    omega
  · intro b hb
    rcases List.mem_append.mp hb with hb | hb
    · exact h.written b hb
    · rw [List.mem_singleton.mp hb]
      exact ⟨w, hlog, rfl⟩
  · intro b hb
    show b.cursor < r.next + 1
    rcases List.mem_append.mp hb with hb | hb
    · have hbelow := h.below b hb
      omega
    · rw [List.mem_singleton.mp hb]
      exact Nat.lt_succ_self _
  · refine List.pairwise_append.mpr ⟨h.sorted, List.pairwise_singleton _ _, fun a ha b hb => ?_⟩
    rw [List.mem_singleton.mp hb]
    exact h.below a ha
  · refine List.isChain_append.mpr ⟨h.chained, List.isChain_singleton _, fun a ha b hb => ?_⟩
    have hexpected : r.expected = a.cursor + 1 := by
      rw [Reader.expected, Option.mem_def.mp ha]
    rw [List.head?_cons, Option.mem_some_iff] at hb
    rw [← hexpected, ← hb]
    exact hnext
  · intro b hb
    cases hreturned : r.returned with
    | nil =>
        have hexpected : r.expected = first := by
          rw [Reader.expected, hreturned, hstarted]
          rfl
        have hb : some (w.block r.next r.gap) = some b := by
          rw [← hb]
          show _ = (r.returned ++ [_]).head?
          rw [hreturned]
          rfl
        refine ⟨first, hstarted, ?_⟩
        rw [← Option.some.inj hb, ← hexpected]
        exact hnext
    | cons a rest =>
        refine h.first b ?_
        rw [← hb]
        show _ = (r.returned ++ [_]).head?
        rw [hreturned]
        rfl

/-- **A reader resynchronises**, strictly forward. -/
lemma Reader.Follows.resynchronise (h : r.Follows ring) (hpos : 0 < r.next)
    (hbehind : r.next + r.latency ≤ ring.latest) (n : ℕ) :
    (r.resynchronise ring.latest n).Follows ring := by
  have hnext := h.next (by omega)
  have hstart : r.next < r.start ring.latest ∧ r.start ring.latest ≤ ring.latest + 1 := by
    rw [Reader.start]
    omega
  have hle : r.expected ≤ r.next := by
    cases hgap : r.gap with
    | false => exact (hnext.1 hgap).ge
    | true => exact (hnext.2 hgap).le
  refine ⟨h.latency, fun h0 => ?_, fun _ => h.started (by omega),
    fun _ => ⟨fun h0 => (nomatch h0), fun _ => ?_⟩, hstart.2, h.written, fun b hb => ?_, h.sorted,
    h.chained, h.first, fun x hx => ?_⟩
  · have h0 : r.start ring.latest = 0 := h0
    omega
  · show r.expected < r.start ring.latest
    omega
  · exact (h.below b hb).trans hstart.1
  · rcases List.mem_append.mp hx with hx | hx
    · exact h.resyncs x hx
    · rw [List.mem_singleton.mp hx]
      exact ⟨hstart.1, hstart.2, le_rfl⟩

/-- The cursors of a reader do not depend on where it is in a read. -/
lemma Reader.Follows.of_pc (h : r.Follows ring)
    (hr : r' = { r with underruns := r'.underruns, payload := r'.payload, pc := r'.pc }) :
    r'.Follows ring := by
  rw [hr]
  exact ⟨h.latency, h.unstarted, h.started, h.next, h.bounded, h.written, h.below, h.sorted,
    h.chained, h.first, h.resyncs⟩

/-- How the cursors of a reader go on after its next load. -/
lemma Reader.Follows.load (h : r.Follows ring) (hc : r.Copies ring r.pc) (hr : ring.Holds)
    (hs : r.load ring = some r') : r'.Follows ring := by
  rw [Reader.load] at hs
  cases hpc : r.pc with
  | idle =>
      rw [hpc] at hs
      cases hs
  | latest n =>
      rw [hpc] at hs
      cases n with
      | zero =>
          cases hs
          exact h.of_pc rfl
      | succ n =>
          rw [Option.some.injEq] at hs
          subst hs
          rw [Reader.turn]
          split_ifs
          all_goals exact h.aim.of_pc rfl
  | first n =>
      rw [hpc] at hs
      cases hs
      exact h.of_pc rfl
  | copying n first todo =>
      rw [hpc] at hs hc
      obtain ⟨hpos, hle, hfirst, done, hall, hcopied⟩ := hc
      cases todo with
      | cons p todo =>
          cases hs
          exact h.of_pc rfl
      | nil =>
          rw [List.append_nil] at hall
          subst hall
          dsimp only at hs
          split_ifs at hs with hvalid
          · obtain ⟨w, hlog, hdecode⟩ := hr.decode hvalid.1 hvalid.2 hpos hcopied
            rw [hdecode] at hs
            cases hs
            exact h.yieldBlock hpos hle hlog
          · cases hs
            exact h.of_pc rfl
  | resync n =>
      rw [hpc] at hs hc
      cases hs
      exact h.resynchronise hc.1 hc.2 n

/-! ### The system -/

/-- A track: its ring, its writer and the readers that have mapped it. -/
structure Track where
  ring : Ring
  writer : Writer
  readers : List Reader := []

/-- What may happen next to a track. -/
inductive TrackLabel where
  | writer (l : WriterLabel)
  /-- `PlaybackReader::new` on a mapping whose descriptor fits the ring -/
  | attach (d : Descriptor) (latency : ℕ)
  /-- reader `i` calls `read` -/
  | read (i : ℕ)
  /-- the next load of reader `i` -/
  | load (i : ℕ)
  deriving DecidableEq, Repr

namespace Track

/-- Reader `i` takes a step. -/
def onReader (t : Track) (i : ℕ) (f : Reader → Option Reader) : Option Track := do
  let r ← t.readers[i]?
  let r' ← f r
  some { t with readers := t.readers.set i r' }

/-- **One step of a track.** -/
def step (t : Track) : TrackLabel → Option Track
  | .writer l => (t.writer.step t.ring l).map fun x => { t with ring := x.1, writer := x.2 }
  | .attach d latency =>
      if t.ring.fits d = true then
        some { t with readers := t.readers ++ [Reader.new d latency] }
      else none
  | .read i => t.onReader i Reader.read
  | .load i => t.onReader i fun r => r.load t.ring

/-- A track that has just been made. -/
def Starts (s : Settings) (t : Track) : Prop :=
  ∃ ring, Ring.create s = some ring ∧ t = { ring, writer := { format := s.format } }

/-- The invariant of a track. -/
structure Plays (t : Track) : Prop where
  writing : Writing t.ring t.writer
  readers : ∀ r ∈ t.readers, r.Copies t.ring r.pc ∧ r.Follows t.ring

variable {t t' : Track}

lemma Plays.onReader (h : t.Plays) {i : ℕ} {f : Reader → Option Reader}
    (hf : ∀ r r', r.Copies t.ring r.pc → r.Follows t.ring → f r = some r' →
      r'.Copies t.ring r'.pc ∧ r'.Follows t.ring) (hs : t.onReader i f = some t') : t'.Plays := by
  obtain ⟨r, hr, hs⟩ := Option.bind_eq_some_iff.mp hs
  obtain ⟨r', hr', hs⟩ := Option.bind_eq_some_iff.mp hs
  cases hs
  refine ⟨h.writing, fun x hx => ?_⟩
  rcases List.mem_or_eq_of_mem_set hx with hx | rfl
  · exact h.readers x hx
  · obtain ⟨hcopies, hfollows⟩ := h.readers r (List.mem_of_getElem? hr)
    exact hf r _ hcopies hfollows hr'

lemma follows_new {ring : Ring} (h : ring.Holds) {d : Descriptor} (hd : ring.fits d = true)
    (latency : ℕ) : (Reader.new d latency).Follows ring := by
  have hblocks := h.blocks
  simp only [Ring.fits, Bool.and_eq_true, decide_eq_true_eq] at hd
  obtain ⟨⟨-, hdepth⟩, -⟩ := hd
  refine ⟨?_, fun _ => ⟨rfl, rfl, rfl⟩, fun h0 => absurd rfl h0, fun h0 => absurd rfl h0,
    Nat.zero_le _, fun b hb => (nomatch hb), fun b hb => (nomatch hb), List.Pairwise.nil,
    List.IsChain.nil,
    fun b hb => (nomatch hb), fun x hx => (nomatch hx)⟩
  show min _ (d.blocks - 1) < ring.blocks
  omega

/-- **Every step keeps the invariant of a track.** -/
lemma Plays.step (h : t.Plays) {l : TrackLabel} (hs : t.step l = some t') : t'.Plays := by
  cases l with
  | writer l =>
      obtain ⟨x, hx, rfl⟩ := Option.map_eq_some_iff.mp hs
      obtain ⟨hwriting, hadvances⟩ := h.writing.step hx
      refine ⟨hwriting, fun r hr => ?_⟩
      obtain ⟨hcopies, hfollows⟩ := h.readers r hr
      exact ⟨hcopies.advances hadvances, hfollows.advances hadvances⟩
  | attach d latency =>
      rw [Track.step] at hs
      split_ifs at hs with hd
      cases hs
      refine ⟨h.writing, fun r hr => ?_⟩
      rcases List.mem_append.mp hr with hr | hr
      · exact h.readers r hr
      · rw [List.mem_singleton.mp hr]
        exact ⟨trivial, follows_new h.writing.holds hd latency⟩
  | read i =>
      refine h.onReader (fun r r' hcopies hfollows hr => ?_) hs
      rw [Reader.read] at hr
      split_ifs at hr
      cases hr
      exact ⟨trivial, hfollows.of_pc rfl⟩
  | load i =>
      refine h.onReader (fun r r' hcopies hfollows hr => ?_) hs
      exact ⟨hcopies.load h.writing.holds hfollows.latency hr,
        hfollows.load hcopies h.writing.holds hr⟩

lemma Plays.of_starts {s : Settings} (h : t.Starts s) : t.Plays := by
  obtain ⟨ring, hring, rfl⟩ := h
  exact ⟨Writing.new hring rfl rfl rfl, fun r hr => (nomatch hr)⟩

end Track

/-- **Playback is faithful and monotone.** For every reader of a track, after every
interleaving of the stores of any writes with the loads of any readers:

* every block it has returned is the block that was written at its cursor;
* its cursors increase strictly;
* a block without a gap follows the block before it, at the next cursor and at the next
  sample position; a block with a gap has skipped a cursor; the first block is compared
  with the cursor that the reader first asked for;
* every resynchronisation has moved it forward, and not past the next cursor. -/
theorem faithful_playback {s : Settings} {t₀ t : Track} (h₀ : t₀.Starts s)
    (h : Reaches Track.step Always t₀ t) {r : Reader} (hr : r ∈ t.readers) :
    (∀ b ∈ r.returned, ∃ w, Logged t.ring.written b.cursor w ∧ b = w.block b.cursor b.gap) ∧
    r.returned.Pairwise (fun a b => a.cursor < b.cursor) ∧
    (∀ pre a b post, r.returned = pre ++ a :: b :: post →
      (b.gap = false → b.cursor = a.cursor + 1 ∧
        b.samplePosition = a.samplePosition + a.frames) ∧
      (b.gap = true → a.cursor + 1 < b.cursor)) ∧
    (∀ b, r.returned.head? = some b → ∃ first, r.started = some first ∧
      (b.gap = false → b.cursor = first) ∧ (b.gap = true → first < b.cursor)) ∧
    ∀ x ∈ r.resyncs, x.before < x.after ∧ x.after ≤ x.latest + 1 ∧ x.latest ≤ t.ring.latest := by
  have hplays := h.invariant (P := Track.Plays) (Track.Plays.of_starts h₀)
    fun a l b hp _ hs => hp.step hs
  obtain ⟨-, hfollows⟩ := hplays.readers r hr
  refine ⟨hfollows.written, hfollows.sorted, fun pre a b post heq => ?_, hfollows.first,
    hfollows.resyncs⟩
  have hchained := hfollows.chained
  rw [heq] at hchained
  have hcontinues := (List.isChain_append_cons_cons.mp hchained).2.1
  refine ⟨fun hgap => ?_, hcontinues.2⟩
  have hcursor := hcontinues.1 hgap
  obtain ⟨w, hw, ha⟩ := hfollows.written a (by rw [heq]; simp)
  obtain ⟨w', hw', hb⟩ := hfollows.written b (by rw [heq]; simp)
  refine ⟨hcursor, ?_⟩
  rw [hcursor] at hw'
  calc
    b.samplePosition = w'.samplePosition := by rw [hb]; rfl
    _ = w.samplePosition + w.frames := hplays.writing.holds.chained _ w w' hw hw'
    _ = a.samplePosition + a.frames := by rw [ha]; rfl

/-- One channel of bytes at 8 Hz. -/
def tinyFormat : Format := ⟨8, 1, .mono, .u8⟩

/-- Blocks of one frame, 250 ms deep. -/
def tinySettings : Settings := ⟨tinyFormat, 1, 250000000⟩

/-- The ring of `tinySettings` has two blocks of one byte. -/
def tinyRing : Ring := { blocks := 2, payloadLen := 1 }

lemma create_tiny : Ring.create tinySettings = some tinyRing := by
  rw [Ring.create, if_neg (by decide), if_neg (by decide)]
  have hone : UInt32.toNat 1 = 1 := rfl
  norm_num [tinySettings, tinyFormat, tinyRing, Format.frameBytes, Sample.bytes, hone]

/-- A block of one byte. -/
def writeByte (b : UInt8) : List TrackLabel :=
  .writer (.write [b] 0) :: List.replicate 12 (.writer .store)

/-- A reader that gets the first block and is lapped by the next three. -/
def lapped : List TrackLabel := List.flatten
  [writeByte 1, [.attach ⟨tinyFormat, 1, 2⟩ 125000000, .read 0], List.replicate 13 (.load 0),
    writeByte 2, writeByte 3, writeByte 4, [.read 0], List.replicate 15 (.load 0)]

theorem faithful_playback_lapped :
    let t := play Track.step { ring := tinyRing, writer := { format := tinyFormat } } lapped
    t.readers.map (fun r => r.returned.map fun b => (b.cursor, b.gap)) =
      [[(1, false), (4, true)]] ∧
    ∀ r ∈ t.readers,
      (∀ b ∈ r.returned, ∃ w, Logged t.ring.written b.cursor w ∧ b = w.block b.cursor b.gap) ∧
      r.returned.Pairwise (fun a b => a.cursor < b.cursor) ∧
      (∀ pre a b post, r.returned = pre ++ a :: b :: post →
        (b.gap = false → b.cursor = a.cursor + 1 ∧
          b.samplePosition = a.samplePosition + a.frames) ∧
        (b.gap = true → a.cursor + 1 < b.cursor)) ∧
      (∀ b, r.returned.head? = some b → ∃ first, r.started = some first ∧
        (b.gap = false → b.cursor = first) ∧ (b.gap = true → first < b.cursor)) ∧
      ∀ x ∈ r.resyncs, x.before < x.after ∧ x.after ≤ x.latest + 1 ∧
        x.latest ≤ t.ring.latest := by
  intro t
  have hreach : Reaches Track.step Always _ t := Reaches.of_play _ _ _
  refine ⟨by decide +kernel, fun r hr => ?_⟩
  exact faithful_playback ⟨tinyRing, create_tiny, rfl⟩ hreach hr

end Jackstay.Audio
