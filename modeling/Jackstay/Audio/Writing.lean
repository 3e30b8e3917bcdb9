import Mathlib.Data.Nat.ModEq
import Jackstay.Audio.Ring

/-!
What the writer of a ring leaves behind, store by store.

* `Ring.Holds`: what readers rely on. A cell that is not being written holds the block of
  the last cursor that belongs to it; the blocks are well formed and their positions follow
  one another.
* `Ring.Advances`: what a step of the writer leaves to a reader.
* `Writing.step`: the steps of the writer keep the first and give the second.
-/

namespace Jackstay.Audio

open Seqlock

/-- The words of version `n` of the blocks. -/
def BlockWritten (written : List Written) (n : ℕ) (words : Part → ℕ) : Prop :=
  ∃ b, Logged written n b ∧ ∀ p ∈ parts b.samples.length, words p = b.words p

/-- A block that a reader accepts. -/
structure Written.WellFormed (payloadLen : ℕ) (b : Written) : Prop where
  valid : b.format.valid = true
  pos : 0 < b.frames
  frames : b.frames * b.format.frameBytes = b.samples.length
  fits : b.samples.length ≤ payloadLen

/-- **What readers rely on.** -/
structure Ring.Holds (r : Ring) : Prop where
  blocks : 2 ≤ r.blocks
  sound : ∀ k, (r.cells k).Sound (BlockWritten r.written)
  begun_le : ∀ k, (r.cells k).begun ≤ r.written.length
  placed : ∀ k, (r.cells k).begun ≠ 0 → r.index (r.cells k).begun = k
  reached : ∀ cursor, 0 < cursor → cursor ≤ r.written.length → cursor ≤ (r.cell cursor).begun
  complete : ∀ k, (r.cells k).begun ≤ r.latest → (r.cells k).sequence = (r.cells k).begun
  latest_le : r.latest ≤ r.written.length
  ahead : r.written.length ≤ r.latest + 1
  wellFormed : ∀ b ∈ r.written, b.WellFormed r.payloadLen
  chained : ∀ n b b', Logged r.written n b → Logged r.written (n + 1) b' →
    b'.samplePosition = b.samplePosition + b.frames

/-- **What a step of the writer leaves to a reader.** -/
structure Ring.Advances (r r' : Ring) : Prop where
  blocks : r'.blocks = r.blocks
  payloadLen : r'.payloadLen = r.payloadLen
  written : ∃ more, r'.written = r.written ++ more
  latest : r.latest ≤ r'.latest
  cells : r'.cells = r.cells ∨
    ∃ k c, (r.cells k).Writes c ∧ r'.cells = Function.update r.cells k c

/-- The writer is at this point of `write`. -/
def Writer.Here (r : Ring) (w : Writer) : WriterPc → Prop
  | .idle => r.latest = w.cursor ∧
      (∀ b, Logged r.written w.cursor b → w.position = b.samplePosition + b.frames)
  | .storing b todo => (r.latest + 1 = w.cursor ∧ Logged r.written w.cursor b ∧
      w.position = b.samplePosition) ∧ ∃ done, parts b.samples.length = done ++ todo ∧
        (r.cell w.cursor).Storing w.cursor b.words done
  | .sealed b => (r.latest + 1 = w.cursor ∧ Logged r.written w.cursor b ∧
      w.position = b.samplePosition) ∧ (r.cell w.cursor).sequence = w.cursor

/-- **The invariant of a ring and its writer.** -/
structure Writing (r : Ring) (w : Writer) : Prop where
  holds : r.Holds
  cursor : w.cursor = r.written.length
  valid : w.format.valid = true
  narrow : r.payloadLen / w.format.frameBytes < 2 ^ 32
  here : w.Here r w.pc

variable {r r' : Ring} {w w' : Writer}

lemma Ring.Advances.refl (r : Ring) : r.Advances r :=
  ⟨rfl, rfl, ⟨[], (List.append_nil _).symm⟩, le_rfl, Or.inl rfl⟩

lemma BlockWritten.append {written : List Written} {n : ℕ} {words : Part → ℕ}
    (h : BlockWritten written n words) (more : List Written) :
    BlockWritten (written ++ more) n words := by
  obtain ⟨b, hlog, hb⟩ := h
  exact ⟨b, hlog.append more, hb⟩

lemma Ring.index_setCell (r : Ring) (n cursor : ℕ) (c : Cell Part ℕ) :
    (r.setCell n c).index cursor = r.index cursor := rfl

lemma Ring.cell_setCell_self (r : Ring) (cursor : ℕ) (c : Cell Part ℕ) :
    (r.setCell cursor c).cell cursor = c := by
  rw [Ring.cell, cells_setCell, index_setCell, Function.update_self]

/-- The cell of the writer's cursor is replaced by a cell of the same version. -/
lemma Ring.Holds.setCell (h : r.Holds) {cursor : ℕ} {c : Cell Part ℕ}
    (hwrites : (r.cell cursor).Writes c) (hbegun : c.begun = (r.cell cursor).begun)
    (hsound : c.Sound (BlockWritten r.written)) (hlatest : r.latest < c.begun) :
    (r.setCell cursor c).Holds ∧ r.Advances (r.setCell cursor c) := by
  have hcells := r.cells_setCell cursor c
  have hbegins : ∀ k, ((r.setCell cursor c).cells k).begun = (r.cells k).begun := by
    intro k
    rw [hcells]
    by_cases hk : k = r.index cursor
    · rw [hk, Function.update_self, hbegun]
      rfl
    · rw [Function.update_of_ne hk]
  constructor
  · refine ⟨h.blocks, ?_, ?_, ?_, ?_, ?_, h.latest_le, h.ahead, h.wellFormed, h.chained⟩
    · rw [hcells]
      exact Cell.forall_update h.sound _ hsound
    · intro k
      rw [hbegins]
      exact h.begun_le k
    · intro k hk
      rw [hbegins] at hk ⊢
      exact h.placed k hk
    · intro n hpos hle
      rw [Ring.cell, hbegins]
      exact h.reached n hpos hle
    · intro k hk
      have hne : k ≠ r.index cursor := by
        intro h0
        rw [h0, hcells, Function.update_self] at hk
        exact absurd hk (Nat.not_le.mpr hlatest)
      have hsame : (r.setCell cursor c).cells k = r.cells k := by
        rw [hcells, Function.update_of_ne hne]
      rw [hsame] at hk ⊢
      exact h.complete k hk
  · exact ⟨rfl, rfl, ⟨[], (List.append_nil _).symm⟩, le_rfl, Or.inr ⟨_, c, hwrites, hcells⟩⟩

/-- Cursors that share a cell are a multiple of the depth apart. -/
lemma Ring.add_blocks_le {m n : ℕ} (hm : 0 < m) (hlt : m < n) (hindex : r.index m = r.index n) :
    m + r.blocks ≤ n := by
  have hdvd : r.blocks ∣ n - 1 - (m - 1) := (Nat.modEq_iff_dvd' (by omega)).mp hindex
  have hle := Nat.le_of_dvd (by omega) hdvd
  omega

lemma Ring.cells_invalidate (r : Ring) (cursor : ℕ) (b : Written) :
    (r.invalidate cursor b).cells =
      Function.update r.cells (r.index cursor) ((r.cell cursor).invalidate cursor) :=
  r.cells_setCell cursor _

/-- A block is begun, behind the last one. -/
lemma Ring.Holds.invalidate (h : r.Holds) {cursor : ℕ} {b : Written}
    (hcursor : cursor = r.written.length + 1) (hlatest : r.latest = r.written.length)
    (hb : b.WellFormed r.payloadLen) (hchained : ∀ a, Logged r.written r.latest a →
      b.samplePosition = a.samplePosition + a.frames) :
    (r.invalidate cursor b).Holds ∧ r.Advances (r.invalidate cursor b) := by
  have hcells := r.cells_invalidate cursor b
  have hwritten : (r.invalidate cursor b).written = r.written ++ [b] := rfl
  have hlength : (r.invalidate cursor b).written.length = cursor := by
    rw [hwritten, List.length_append, hcursor]
    rfl
  have hsame : (r.invalidate cursor b).latest = r.latest := rfl
  have hbegun : (r.cell cursor).begun < cursor := by
    have hle := h.begun_le (r.index cursor)
    rw [Ring.cell]
    omega
  have hwrites : (r.cells (r.index cursor)).Writes ((r.cell cursor).invalidate cursor) :=
    .invalidate hbegun
  constructor
  · refine ⟨h.blocks, ?_, ?_, ?_, ?_, ?_, ?_, ?_, ?_, ?_⟩
    · rw [hcells, hwritten]
      refine Cell.forall_update (fun k => ?_) _ (Cell.Sound.of_zero rfl)
      exact (h.sound k).mono fun words hw => hw.append _
    · rw [hcells, hlength]
      refine Cell.forall_update (P := fun c => c.begun ≤ cursor) (fun k => ?_) _ le_rfl
      have hle := h.begun_le k
      omega
    · intro k
      rw [hcells]
      by_cases hk : k = r.index cursor
      · rw [hk, Function.update_self]
        exact fun _ => rfl
      · rw [Function.update_of_ne hk]
        exact h.placed k
    · intro n hpos hle
      show n ≤ ((r.invalidate cursor b).cells (r.index n)).begun
      rw [hlength] at hle
      rw [hcells]
      rcases Nat.lt_or_ge r.written.length n with hlt | hge
      · have hn : n = cursor := by omega
        rw [hn, Function.update_self]
        exact le_rfl
      · exact hwrites.le_update (h.reached n hpos hge)
    · intro k hle
      rw [hsame] at hle
      rw [hcells] at hle ⊢
      by_cases hk : k = r.index cursor
      · rw [hk, Function.update_self] at hle
        have hle : cursor ≤ r.latest := hle
        omega
      · rw [Function.update_of_ne hk] at hle ⊢
        exact h.complete k hle
    · rw [hsame, hlength]
      omega
    · rw [hsame, hlength]
      omega
    · intro a ha
      rw [hwritten] at ha
      rcases List.mem_append.mp ha with ha | ha
      · exact h.wellFormed a ha
      · rw [List.mem_singleton.mp ha]
        exact hb
    · intro n a a' ha ha'
      rw [hwritten] at ha ha'
      have hn := ha'.le
      rw [← hwritten, hlength] at hn
      have ha := ha.of_append (by omega)
      rcases Nat.lt_or_ge n r.written.length with hlt | hge
      · exact h.chained n a a' ha (ha'.of_append hlt)
      · have hn' : n = r.latest := by omega
        subst hn'
        rw [hlatest] at ha'
        rw [ha'.unique (Logged.last _ _)]
        exact hchained a ha
  · exact ⟨rfl, rfl, ⟨[b], rfl⟩, le_rfl, Or.inr ⟨_, _, hwrites, hcells⟩⟩

/-! ### The steps of the writer -/

/-- The next block is one that readers accept. -/
lemma Writing.wellFormed (h : Writing r w) {samples : List UInt8} (hostTimeNs : ℕ)
    (hempty : samples ≠ []) (hwhole : samples.length % w.format.frameBytes = 0)
    (hfits : samples.length ≤ r.payloadLen) :
    (w.next samples hostTimeNs).WellFormed r.payloadLen := by
  have hbytes := Format.frameBytes_pos h.valid
  have hlength := List.length_pos_iff.mpr hempty
  have hdvd : w.format.frameBytes ∣ samples.length := Nat.dvd_of_mod_eq_zero hwhole
  have hnarrow : samples.length / w.format.frameBytes < 2 ^ 32 :=
    lt_of_le_of_lt (Nat.div_le_div_right hfits) h.narrow
  have hframes : (w.next samples hostTimeNs).frames = samples.length / w.format.frameBytes :=
    Nat.mod_eq_of_lt hnarrow
  refine ⟨h.valid, ?_, ?_, hfits⟩
  · rw [hframes]
    exact Nat.div_pos (Nat.le_of_dvd hlength hdvd) hbytes
  · rw [hframes]
    exact Nat.div_mul_cancel hdvd

/-- `write` is called. -/
lemma Writing.write (h : Writing r w) (hidle : w.pc = .idle) (samples : List UInt8)
    (hostTimeNs : ℕ) : Writing (w.write r samples hostTimeNs).1 (w.write r samples hostTimeNs).2 ∧
      r.Advances (w.write r samples hostTimeNs).1 := by
  rw [Writer.write]
  split_ifs with herror
  · exact ⟨h, Ring.Advances.refl r⟩
  push Not at herror
  obtain ⟨hempty, hwhole, hfits⟩ := herror
  have hhere := h.here
  rw [hidle] at hhere
  obtain ⟨hlatest, hposition⟩ := hhere
  have hcursor := h.cursor
  have hlast : w.cursor + 1 = r.written.length + 1 := by omega
  obtain ⟨hholds, hadvances⟩ := h.holds.invalidate hlast (by omega)
    (h.wellFormed hostTimeNs hempty hwhole hfits)
    fun a ha => hposition a (hlatest ▸ ha)
  have hlog : Logged (r.written ++ [w.next samples hostTimeNs]) (w.cursor + 1)
      (w.next samples hostTimeNs) := by
    rw [hcursor]
    exact Logged.last _ _
  refine ⟨⟨hholds, ?_, h.valid, h.narrow, ⟨?_, hlog, rfl⟩, [], rfl, ?_⟩, hadvances⟩
  · show w.cursor + 1 = (r.written ++ [_]).length
    rw [List.length_append, hcursor]
    rfl
  · show r.latest + 1 = w.cursor + 1
    rw [hlatest]
  · show ((r.setCell _ _).cell (w.cursor + 1)).Storing _ _ _
    rw [Ring.cell_setCell_self]
    exact Cell.storing_invalidate _ _ _

/-- A store of `write`. -/
lemma Writing.store (h : Writing r w) {x : Ring × Writer} (hs : w.store r = some x) :
    Writing x.1 x.2 ∧ r.Advances x.1 := by
  have hhere := h.here
  rw [Writer.store] at hs
  cases hpc : w.pc with
  | idle =>
      rw [hpc] at hs
      cases hs
  | storing b todo =>
      rw [hpc] at hs hhere
      obtain ⟨hlatest, done, hall, hstoring⟩ := hhere
      have hahead : r.latest < (r.cell w.cursor).begun := by
        rw [hstoring.begun]
        omega
      cases todo with
      | cons p todo =>
          cases hs
          obtain ⟨hholds, hadvances⟩ := h.holds.setCell (.store hstoring.sequence) rfl
            (Cell.Sound.of_zero hstoring.sequence) hahead
          refine ⟨⟨hholds, h.cursor, h.valid, h.narrow, hlatest, done ++ [p], ?_, ?_⟩, hadvances⟩
          · rw [hall, List.append_assoc]
            rfl
          · rw [Ring.cell_setCell_self]
            exact hstoring.store p
      | nil =>
          cases hs
          rw [List.append_nil] at hall
          have hwritten : BlockWritten r.written w.cursor (r.cell w.cursor).words :=
            ⟨b, hlatest.2.1, fun p hp => hstoring.stored p (hall ▸ hp)⟩
          have hwrites : (r.cell w.cursor).Writes ((r.cell w.cursor).publish w.cursor) := by
            have hpublish := Cell.Writes.publish hstoring.sequence
            rw [hstoring.begun] at hpublish
            exact hpublish
          obtain ⟨hholds, hadvances⟩ := h.holds.setCell hwrites rfl (hstoring.sound hwritten) hahead
          refine ⟨⟨hholds, h.cursor, h.valid, h.narrow, hlatest, ?_⟩, hadvances⟩
          rw [Ring.cell_setCell_self]
          rfl
  | sealed b =>
      rw [hpc] at hs hhere
      cases hs
      obtain ⟨⟨hlatest, hlog, hposition⟩, hsequence⟩ := hhere
      have hcursor := h.cursor
      have hholds := h.holds
      refine ⟨⟨⟨hholds.blocks, hholds.sound, hholds.begun_le, hholds.placed, hholds.reached,
        fun k hle => ?_, hcursor.le, ?_, hholds.wellFormed, hholds.chained⟩, hcursor, h.valid,
        h.narrow, rfl, fun a ha => ?_⟩, rfl, rfl, ⟨[], (List.append_nil _).symm⟩, ?_, Or.inl rfl⟩
      · rcases Nat.lt_or_ge r.latest (r.cells k).begun with hlt | hge
        · have hbegun : (r.cells k).begun = w.cursor := by
            have hle : (r.cells k).begun ≤ w.cursor := hle
            omega
          have hk := hholds.placed k (by omega)
          rw [hbegun] at hk
          rw [Ring.cell, hk] at hsequence
          rw [hbegun]
          exact hsequence
        · exact hholds.complete k hge
      · show r.written.length ≤ w.cursor + 1
        omega
      · rw [ha.unique hlog]
        show w.position + b.frames = _
        rw [hposition]
      · show r.latest ≤ w.cursor
        omega

/-- **A step of the writer.** -/
theorem Writing.step (h : Writing r w) {l : WriterLabel} {x : Ring × Writer}
    (hs : w.step r l = some x) : Writing x.1 x.2 ∧ r.Advances x.1 := by
  cases l with
  | store => exact h.store hs
  | write samples hostTimeNs =>
      rw [Writer.step] at hs
      split_ifs at hs with hidle
      cases hs
      exact h.write hidle samples hostTimeNs
  | discontinuity =>
      rw [Writer.step] at hs
      split_ifs at hs with hidle
      cases hs
      exact ⟨⟨h.holds, h.cursor, h.valid, h.narrow, h.here⟩, Ring.Advances.refl r⟩
  | reconfigure format =>
      rw [Writer.step] at hs
      split_ifs at hs with hidle
      cases hs
      refine ⟨?_, Ring.Advances.refl r⟩
      rw [Writer.reconfigure]
      split_ifs with herror
      · exact h
      · push Not at herror
        have hhere := h.here
        rw [hidle] at hhere
        refine ⟨h.holds, h.cursor, ?_, herror.2.2, ?_⟩
        · simpa using herror.1
        · show Writer.Here r _ w.pc
          rw [hidle]
          exact hhere

/-- The geometry of a new ring. -/
lemma Ring.create_eq {s : Settings} (hs : Ring.create s = some r) : s.format.valid = true ∧
    2 ≤ r.blocks ∧
      r = { blocks := r.blocks, payloadLen := s.blockFrames.toNat * s.format.frameBytes } := by
  rw [Ring.create] at hs
  dsimp only at hs
  split_ifs at hs with herror hdepth hblocks
  cases hs
  push Not at herror
  have hvalid : s.format.valid = true := by simpa using herror.1
  exact ⟨hvalid, le_max_right _ _, rfl⟩

/-- An empty ring is one that readers may rely on. -/
lemma Ring.Holds.empty {blocks payloadLen : ℕ} (h : 2 ≤ blocks) :
    ({ blocks, payloadLen } : Ring).Holds := by
  refine ⟨h, fun k => Cell.Sound.of_zero rfl, fun k => le_rfl, fun k h0 => absurd rfl h0,
    fun n hpos hle => absurd hle (Nat.not_le.mpr hpos), fun k _ => rfl, le_rfl, Nat.zero_le _,
    fun b hb => (nomatch hb), fun n b b' hb => ?_⟩
  exact absurd hb.le (Nat.not_le.mpr hb.1)

/-- A new ring, and a writer of the format that it was made for. -/
lemma Writing.new {s : Settings} (hs : Ring.create s = some r) (hformat : w.format = s.format)
    (hcursor : w.cursor = 0) (hpc : w.pc = .idle) : Writing r w := by
  obtain ⟨hvalid, hblocks, hr⟩ := Ring.create_eq hs
  rw [hr]
  refine ⟨Ring.Holds.empty hblocks, hcursor, hformat ▸ hvalid, ?_, ?_⟩
  · rw [hformat]
    show s.blockFrames.toNat * s.format.frameBytes / s.format.frameBytes < 2 ^ 32
    rw [Nat.mul_div_cancel _ (Format.frameBytes_pos hvalid)]
    exact s.blockFrames.toNat_lt
  · rw [hpc]
    refine ⟨hcursor.symm, fun b hb => ?_⟩
    exact absurd hb.le (Nat.not_le.mpr hb.1)

end Jackstay.Audio
