import Jackstay.Audio.Playback

/-!
`audio.rs`: a recording track, written by the one admitted consumer and read by the source.

`Playback::claim` admits a writer with a fresh ring, under a lock that only host threads
wait for; dropping the `Lease` withdraws the writer. The source loads the epoch of the
admitted writer without the lock, and takes the new ring over if it gets the lock; until
then, and while nobody is admitted, it reads silence. A consumer that has lost its lease
may go on writing into its old ring.

Rings are named by the epoch they were created for; ring 0 is the one of the reader before
any writer, which nobody maps. Host threads have no state of their own outside the lock, so
`host` is where the holder of the lock is. `reads` is a history variable: for each read, the
epoch it loaded, the leases that were alive then, and what it returned.

* `Recording.Hosted`, `Recording.Mapped`, `Recording.Heard`: the invariants of the host, of
  the writers and of the reader.
* `one_writer`: one lease at a time, and a read never mixes writers.
-/

namespace Jackstay.Audio

open Seqlock Transition

/-- Where the holder of the lock is in `claim` or in the drop of a `Lease`. -/
inductive HostPc where
  | unlocked
  | claiming
  /-- the table names the new writer; the word does not yet -/
  | admitting
  | dropping
  /-- the word is cleared; the table still names the writer -/
  | retiring
  deriving DecidableEq, Repr

/-- Where `RecordingReader::read` is, with the epoch it has loaded and the leases alive then. -/
inductive SourcePc where
  | idle
  | loaded (epoch : ℕ) (leases : List ℕ)
  | reading (epoch : ℕ) (leases : List ℕ)
  deriving DecidableEq, Repr

/-- What a read did. -/
structure RecordedRead where
  loaded : ℕ
  leases : List ℕ
  /-- `none` in underrun -/
  result : Option Block
  deriving DecidableEq, Repr

/-- A recording track. -/
structure Recording where
  descriptor : Descriptor
  payloadLen : ℕ
  /-- the admitted writer's epoch, or 0 with none -/
  writer : ℕ := 0
  /-- `Writers`, behind the lock -/
  epoch : ℕ := 0
  current : Option ℕ := none
  retired : List ℕ := []
  host : HostPc := .unlocked
  leases : List ℕ := []
  rings : ℕ → Ring
  /-- the `RecordingWriter` that has mapped a ring -/
  writers : ℕ → Option Writer := fun _ => none
  /-- `RecordingReader`: the ring it reads, the writer it reads from, and its cursor -/
  ring : ℕ := 0
  source : ℕ := 0
  reader : Reader
  pc : SourcePc := .idle
  reads : List RecordedRead := []

/-- What may happen next to a recording track. -/
inductive RecordingLabel where
  /-- a host thread takes the lock in `claim` -/
  | claim
  /-- the ring is created, or not -/
  | create (ok : Bool)
  /-- the epoch of the new writer is stored -/
  | enroll
  /-- a `Lease` is dropped: its thread takes the lock -/
  | drop
  | withdraw
  | retire
  /-- a consumer maps the ring of an epoch -/
  | map (epoch : ℕ)
  | write (epoch : ℕ) (samples : List UInt8) (hostTimeNs : ℕ)
  | discontinuity (epoch : ℕ)
  | store (epoch : ℕ)
  /-- the source calls `read` and loads the epoch -/
  | read
  /-- the source tries the lock -/
  | tryLock (ok : Bool)
  /-- the next load of the read of a ring -/
  | load
  deriving DecidableEq, Repr

namespace Recording

/-- `RecordingReader::new`. -/
def new (s : Settings) (latency : ℕ) : Option Recording := do
  let ring ← Ring.create s
  let d : Descriptor := ⟨s.format, ring.payloadLen / s.format.frameBytes, ring.blocks⟩
  some {
    descriptor := d
    payloadLen := ring.payloadLen
    rings := fun _ => ring
    reader := Reader.new d latency }

/-- The block that stands for silence. -/
def silence (t : Recording) : Block where
  cursor := 0
  samplePosition := 0
  hostTimeNs := 0
  frames := t.descriptor.blockFrames
  format := t.descriptor.format
  generation := 0
  discontinuity := false
  reconfiguration := false
  gap := false
  samples := List.replicate t.payloadLen (if t.descriptor.format.sample = .u8 then 0x80 else 0)

/-- `Writers::retire`: the current ring is kept as long as the reader holds it. -/
def retire (t : Recording) : Recording :=
  { t with
    retired := (t.retired ++ t.current.toList).filter fun e => e = t.ring
    current := none }

/-- `RecordingWriter::map`. -/
def map (t : Recording) (epoch : ℕ) : Writer where
  format := t.descriptor.format
  cursor := (t.rings epoch).latest
  flags := discontinuityFlag

/-- The writer of an epoch. -/
def setWriter (t : Recording) (epoch : ℕ) (w : Writer) : Recording :=
  { t with writers := fun k => if k = epoch then some w else t.writers k }

/-- The ring of an epoch. -/
def setRing (t : Recording) (epoch : ℕ) (ring : Ring) : Recording :=
  { t with rings := fun k => if k = epoch then ring else t.rings k }

lemma setWriter_eq (t : Recording) (epoch : ℕ) (w : Writer) :
    t.setWriter epoch w = { t with writers := Function.update t.writers epoch (some w) } := by
  have hwriters : (t.setWriter epoch w).writers = Function.update t.writers epoch (some w) := by
    funext k
    rw [Function.update_apply]
    rfl
  rw [← hwriters]
  rfl

lemma setRing_eq (t : Recording) (epoch : ℕ) (ring : Ring) :
    t.setRing epoch ring = { t with rings := Function.update t.rings epoch ring } := by
  have hrings : (t.setRing epoch ring).rings = Function.update t.rings epoch ring := by
    funext k
    rw [Function.update_apply]
    rfl
  rw [← hrings]
  rfl

/-- A writer takes a step on its ring, admitted or not. -/
def onWriter (t : Recording) (epoch : ℕ) (l : WriterLabel) : Option Recording := do
  let w ← t.writers epoch
  let x ← w.step (t.rings epoch) l
  some ((t.setRing epoch x.1).setWriter epoch x.2)

/-- The end of a read. -/
def finish (t : Recording) (epoch : ℕ) (leases : List ℕ) (result : Option Block) : Recording :=
  { t with pc := .idle, reads := t.reads ++ [⟨epoch, leases, result⟩] }

/-- The rest of a read, once it has settled on a writer: silence or a read of the ring. -/
def settle (t : Recording) (epoch : ℕ) (leases : List ℕ) : Recording :=
  if epoch = 0 ∨ epoch ≠ t.source then t.finish epoch leases (some t.silence)
  else { t with reader := { t.reader with pc := .latest 2 }, pc := .reading epoch leases }

/-- The next load of the read of a ring. -/
def loadRing (t : Recording) (epoch : ℕ) (leases : List ℕ) : Option Recording :=
  (t.reader.load (t.rings t.ring)).map fun r =>
    if r.pc = .idle then
      ({ t with reader := r } : Recording).finish epoch leases
        (r.returned.drop t.reader.returned.length).head?
    else { t with reader := r }

/-- The source holds the lock: it takes the ring over that the table has for the epoch. -/
def switch (t : Recording) (epoch : ℕ) : Recording :=
  match t.current with
  | some ring =>
      if t.epoch = epoch then
        { t with ring, source := epoch, reader := { t.reader with next := 0 } }
      else t
  | none => t

/-- **One step of a recording track.** -/
def step (t : Recording) : RecordingLabel → Option Recording
  | .claim => if t.host = .unlocked then some { t with host := .claiming } else none
  | .create ok =>
      if t.host = .claiming then
        if t.writer ≠ 0 ∨ ok = false then some { t with host := .unlocked }
        else some { t.retire with
          epoch := t.epoch + 1
          current := some (t.epoch + 1)
          host := .admitting }
      else none
  | .enroll =>
      if t.host = .admitting then
        some { t with writer := t.epoch, leases := t.leases ++ [t.epoch], host := .unlocked }
      else none
  | .drop =>
      if t.host = .unlocked ∧ t.leases ≠ [] then some { t with host := .dropping } else none
  | .withdraw => if t.host = .dropping then some { t with writer := 0, host := .retiring } else none
  | .retire =>
      if t.host = .retiring then some { t.retire with leases := t.leases.tail, host := .unlocked }
      else none
  | .map epoch =>
      if 0 < epoch ∧ epoch ≤ t.epoch ∧ t.writers epoch = none then
        some (t.setWriter epoch (t.map epoch))
      else none
  | .write epoch samples hostTimeNs => t.onWriter epoch (.write samples hostTimeNs)
  | .discontinuity epoch => t.onWriter epoch .discontinuity
  | .store epoch => t.onWriter epoch .store
  | .read =>
      if t.pc = .idle then
        if t.writer ≠ 0 ∧ t.writer ≠ t.source then
          some { t with pc := .loaded t.writer t.leases }
        else some (t.settle t.writer t.leases)
      else none
  | .tryLock ok =>
      match t.pc with
      | .loaded epoch leases =>
          if ok = true then
            if t.host = .unlocked then some ((t.switch epoch).settle epoch leases) else none
          else some (t.settle epoch leases)
      | _ => none
  | .load =>
      match t.pc with
      | .reading epoch leases => t.loadRing epoch leases
      | _ => none

/-! ### The host -/

/-- A lease is alive: it is that of the last epoch, and the table has its ring. -/
def Admitted (t : Recording) : Prop :=
  t.leases = [t.epoch] ∧ 0 < t.epoch ∧ t.current = some t.epoch

/-- No lease is alive. -/
def Vacant (t : Recording) : Prop := t.leases = [] ∧ t.writer = 0 ∧ t.current = none

/-- **The invariant of the host**, by where the holder of the lock is. -/
def Hosted (t : Recording) : HostPc → Prop
  | .unlocked => t.Vacant ∨ (t.Admitted ∧ t.writer = t.epoch)
  | .claiming => t.Vacant ∨ (t.Admitted ∧ t.writer = t.epoch)
  | .admitting => t.leases = [] ∧ t.writer = 0 ∧ 0 < t.epoch ∧ t.current = some t.epoch
  | .dropping => t.Admitted ∧ t.writer = t.epoch
  | .retiring => t.Admitted ∧ t.writer = 0

variable {t t' : Recording}

/-- What the word says about the leases, at any time. -/
lemma Hosted.word {pc : HostPc} (h : t.Hosted pc) :
    (t.writer = 0 ∨ t.leases = [t.epoch] ∧ 0 < t.epoch ∧ t.writer = t.epoch) ∧
      (t.leases = [] → t.writer = 0) ∧ t.leases.length ≤ 1 := by
  have idle : t.Vacant ∨ (t.Admitted ∧ t.writer = t.epoch) →
      (t.writer = 0 ∨ t.leases = [t.epoch] ∧ 0 < t.epoch ∧ t.writer = t.epoch) ∧
      (t.leases = [] → t.writer = 0) ∧ t.leases.length ≤ 1 := by
    rintro (⟨hleases, hword, -⟩ | ⟨⟨hleases, hpos, -⟩, hword⟩)
    · refine ⟨Or.inl hword, fun _ => hword, ?_⟩
      rw [hleases]
      exact Nat.zero_le _
    · refine ⟨Or.inr ⟨hleases, hpos, hword⟩, fun h0 => ?_, ?_⟩
      · cases hleases.symm.trans h0
      · rw [hleases]
        exact le_rfl
  cases pc with
  | unlocked => exact idle h
  | claiming => exact idle h
  | admitting =>
      obtain ⟨hleases, hword, -⟩ := h
      refine ⟨Or.inl hword, fun _ => hword, ?_⟩
      rw [hleases]
      exact Nat.zero_le _
  | dropping => exact idle (Or.inr h)
  | retiring =>
      obtain ⟨⟨hleases, -⟩, hword⟩ := h
      refine ⟨Or.inl hword, fun _ => hword, ?_⟩
      rw [hleases]
      exact le_rfl

/-- The ring in the table is that of the last epoch. -/
lemma Hosted.current {pc : HostPc} (h : t.Hosted pc) {e : ℕ} (he : t.current = some e) :
    e = t.epoch := by
  have hlast : t.current = none ∨ t.current = some t.epoch := by
    cases pc with
    | unlocked => exact h.imp (fun hv => hv.2.2) fun ha => ha.1.2.2
    | claiming => exact h.imp (fun hv => hv.2.2) fun ha => ha.1.2.2
    | admitting => exact Or.inr h.2.2.2
    | dropping => exact Or.inr h.1.2.2
    | retiring => exact Or.inr h.1.2.2
  rcases hlast with h0 | h0
  · cases h0.symm.trans he
  · exact Option.some.inj (he.symm.trans h0)

/-- The host does not depend on the writers and on the source. -/
lemma Hosted.congr {pc : HostPc} (h : t.Hosted pc) (hwriter : t'.writer = t.writer)
    (hepoch : t'.epoch = t.epoch) (hcurrent : t'.current = t.current)
    (hleases : t'.leases = t.leases) : t'.Hosted pc := by
  have hadmitted : t'.Admitted ↔ t.Admitted := by
    rw [Admitted, Admitted, hleases, hepoch, hcurrent]
  have hvacant : t'.Vacant ↔ t.Vacant := by
    rw [Vacant, Vacant, hleases, hwriter, hcurrent]
  cases pc with
  | unlocked =>
      rw [Hosted, hvacant, hadmitted, hwriter, hepoch]
      exact h
  | claiming =>
      rw [Hosted, hvacant, hadmitted, hwriter, hepoch]
      exact h
  | admitting =>
      rw [Hosted, hleases, hwriter, hcurrent, hepoch]
      exact h
  | dropping =>
      rw [Hosted, hadmitted, hwriter, hepoch]
      exact h
  | retiring =>
      rw [Hosted, hadmitted, hwriter]
      exact h

/-! ### The writers -/

/-- **The invariant of the rings**: a mapped ring belongs to its writer, the others are as
they were created. -/
structure Mapped (t : Recording) : Prop where
  writing : ∀ e w, t.writers e = some w → Writing (t.rings e) w
  fresh : ∀ e, t.writers e = none →
    ∃ s, Ring.create s = some (t.rings e) ∧ t.descriptor.format = s.format
  blocks : ∀ e, (t.rings e).blocks = t.descriptor.blocks

lemma Mapped.holds (h : t.Mapped) (e : ℕ) : (t.rings e).Holds := by
  cases hw : t.writers e with
  | some w => exact (h.writing e w hw).holds
  | none =>
      obtain ⟨s, hs, -⟩ := h.fresh e hw
      obtain ⟨-, hblocks, hr⟩ := Ring.create_eq hs
      rw [hr]
      exact Ring.Holds.empty hblocks

/-- A step on one ring, seen from any of them. -/
lemma advances_update {rings : ℕ → Ring} {e : ℕ} {ring : Ring} (h : (rings e).Advances ring)
    (j : ℕ) : (rings j).Advances (Function.update rings e ring j) := by
  by_cases hje : j = e
  · subst hje
    rw [Function.update_self]
    exact h
  · rw [Function.update_of_ne hje]
    exact Ring.Advances.refl _

/-- A writer takes a step. -/
lemma Mapped.onWriter (h : t.Mapped) {e : ℕ} {l : WriterLabel} (hs : t.onWriter e l = some t') :
    t'.Mapped ∧ ∃ ring w, (t.rings e).Advances ring ∧
      t' = { t with
        rings := Function.update t.rings e ring
        writers := Function.update t.writers e (some w) } := by
  obtain ⟨w, hw, hs⟩ := Option.bind_eq_some_iff.mp hs
  obtain ⟨x, hx, hs⟩ := Option.bind_eq_some_iff.mp hs
  rw [setWriter_eq, setRing_eq] at hs
  cases hs
  obtain ⟨hwriting, hadvances⟩ := (h.writing e w hw).step hx
  refine ⟨⟨fun j v hv => ?_, fun j hj => ?_, fun j => ?_⟩, x.1, x.2, hadvances, rfl⟩
  · by_cases hje : j = e
    · subst hje
      dsimp only at hv ⊢
      rw [Function.update_self] at hv ⊢
      cases hv
      exact hwriting
    · dsimp only at hv ⊢
      rw [Function.update_of_ne hje] at hv ⊢
      exact h.writing j v hv
  · by_cases hje : j = e
    · subst hje
      dsimp only at hj
      rw [Function.update_self] at hj
      cases hj
    · dsimp only at hj ⊢
      rw [Function.update_of_ne hje] at hj ⊢
      exact h.fresh j hj
  · by_cases hje : j = e
    · subst hje
      dsimp only
      rw [Function.update_self, hadvances.blocks]
      exact h.blocks j
    · dsimp only
      rw [Function.update_of_ne hje]
      exact h.blocks j

/-- A consumer maps a ring. -/
lemma Mapped.map (h : t.Mapped) {e : ℕ} (he : t.writers e = none) :
    ({ t with writers := Function.update t.writers e (some (t.map e)) } : Recording).Mapped := by
  refine ⟨fun j v hv => ?_, fun j hj => ?_, h.blocks⟩
  · by_cases hje : j = e
    · subst hje
      dsimp only at hv ⊢
      rw [Function.update_self] at hv
      cases hv
      obtain ⟨s, hs, hformat⟩ := h.fresh j he
      obtain ⟨-, -, hr⟩ := Ring.create_eq hs
      exact Writing.new hs hformat (by rw [Recording.map, hr]) rfl
    · dsimp only at hv ⊢
      rw [Function.update_of_ne hje] at hv
      exact h.writing j v hv
  · have hje : j ≠ e := by
      rintro rfl
      dsimp only at hj
      rw [Function.update_self] at hj
      cases hj
    dsimp only at hj ⊢
    rw [Function.update_of_ne hje] at hj
    exact h.fresh j hj

/-! ### The source -/

/-- **A read that is in order**: silence, or a block of the ring of the epoch it loaded,
whose writer was admitted then. -/
structure Sound (t : Recording) (x : RecordedRead) : Prop where
  block : ∀ b, x.result = some b → b = t.silence ∨
    (x.loaded ≠ 0 ∧ x.leases = [x.loaded] ∧
      ∃ w, Logged (t.rings x.loaded).written b.cursor w ∧ b = w.block b.cursor b.gap)
  silent : x.leases = [] → x.result = some t.silence

/-- The epoch that a read has loaded. -/
structure Loaded (t : Recording) (epoch : ℕ) (leases : List ℕ) : Prop where
  pos : 0 < epoch
  leases : leases = [epoch]
  le : epoch ≤ t.epoch
  newest : ∀ x ∈ t.reads, x.loaded ≤ epoch

/-- Where the read is. -/
def Listens (t : Recording) : SourcePc → Prop
  | .idle => True
  | .loaded epoch leases => t.Loaded epoch leases
  | .reading epoch leases => t.Loaded epoch leases ∧ epoch = t.source

/-- **The invariant of the source.** -/
structure Heard (t : Recording) : Prop where
  ring : t.ring = t.source
  latency : t.reader.latency < t.descriptor.blocks
  copies : t.reader.Copies (t.rings t.ring) t.reader.pc
  listens : t.Listens t.pc
  resting : (∀ epoch leases, t.pc ≠ .reading epoch leases) → t.reader.pc = .idle
  sound : ∀ x ∈ t.reads, t.Sound x
  seen : ∀ x ∈ t.reads, x.loaded ≤ t.epoch
  ordered : t.reads.Pairwise fun x y => y.loaded = 0 ∨ x.loaded ≤ y.loaded

lemma Listens.mono {pc : SourcePc} (h : t.Listens pc) (hepoch : t.epoch ≤ t'.epoch)
    (hsource : t'.source = t.source) (hreads : t'.reads = t.reads) : t'.Listens pc := by
  have hloaded : ∀ epoch leases, t.Loaded epoch leases → t'.Loaded epoch leases := by
    intro epoch leases hl
    exact ⟨hl.pos, hl.leases, hl.le.trans hepoch, hreads ▸ hl.newest⟩
  cases pc with
  | idle => trivial
  | loaded epoch leases => exact hloaded epoch leases h
  | reading epoch leases => exact ⟨hloaded epoch leases h.1, hsource ▸ h.2⟩

/-- The host takes a step. -/
lemma Heard.of_host (h : t.Heard)
    (ht : t' = { t with
      writer := t'.writer
      epoch := t'.epoch
      current := t'.current
      retired := t'.retired
      host := t'.host
      leases := t'.leases
      writers := t'.writers }) (hepoch : t.epoch ≤ t'.epoch) : t'.Heard := by
  have hlistens : t'.Listens t'.pc := by
    have hpc : t'.pc = t.pc := by rw [ht]
    rw [hpc]
    exact h.listens.mono hepoch (by rw [ht]) (by rw [ht])
  have hseen : ∀ x ∈ t'.reads, x.loaded ≤ t'.epoch := by
    intro x hx
    rw [ht] at hx
    exact (h.seen x hx).trans hepoch
  rw [ht] at hlistens hseen ⊢
  exact ⟨h.ring, h.latency, h.copies, hlistens, h.resting, fun x hx => ⟨(h.sound x hx).block,
    (h.sound x hx).silent⟩, hseen, h.ordered⟩

/-- A writer takes a step. -/
lemma Heard.of_rings (h : t.Heard) {e : ℕ} {ring : Ring} {w : Writer}
    (hadvances : (t.rings e).Advances ring) (ht : t' = { t with
      rings := Function.update t.rings e ring
      writers := Function.update t.writers e (some w) }) : t'.Heard := by
  have hring : ∀ j, (t.rings j).Advances (t'.rings j) := by
    intro j
    rw [ht]
    exact advances_update hadvances j
  have hcopies := h.copies.advances (hring t.ring)
  have hsound : ∀ x ∈ t.reads, t'.Sound x := by
    intro x hx
    have hx := h.sound x hx
    have hsilence : t'.silence = t.silence := by
      rw [ht]
      rfl
    refine ⟨fun b hb => ?_, fun h0 => ?_⟩
    · rw [hsilence]
      refine (hx.block b hb).imp_right fun ⟨hne, hleases, v, hlog, hv⟩ => ⟨hne, hleases, v, ?_, hv⟩
      obtain ⟨more, hwritten⟩ := (hring x.loaded).written
      rw [hwritten]
      exact hlog.append more
    · rw [hsilence]
      exact hx.silent h0
  rw [ht] at hcopies hsound ⊢
  exact ⟨h.ring, h.latency, hcopies, h.listens.mono le_rfl rfl rfl, h.resting, hsound, h.seen,
    h.ordered⟩

/-- A read ends. -/
lemma Heard.finish (h : t.Heard) {epoch : ℕ} {leases : List ℕ} {result : Option Block}
    (hsound : t.Sound ⟨epoch, leases, result⟩) (hle : epoch ≤ t.epoch)
    (hnewest : epoch = 0 ∨ ∀ x ∈ t.reads, x.loaded ≤ epoch) (hreader : t.reader.pc = .idle) :
    (t.finish epoch leases result).Heard := by
  refine ⟨h.ring, h.latency, h.copies, trivial, fun _ => hreader, fun x hx => ?_, fun x hx => ?_,
    ?_⟩
  · rcases List.mem_append.mp hx with hx | hx
    · exact ⟨(h.sound x hx).block, (h.sound x hx).silent⟩
    · rw [List.mem_singleton.mp hx]
      exact ⟨hsound.block, hsound.silent⟩
  · rcases List.mem_append.mp hx with hx | hx
    · exact h.seen x hx
    · rw [List.mem_singleton.mp hx]
      exact hle
  · refine List.pairwise_append.mpr ⟨h.ordered, List.pairwise_singleton _ _, fun x hx y hy => ?_⟩
    rw [List.mem_singleton.mp hy]
    exact hnewest.imp_right fun hall => hall x hx

/-- The read settles on silence or on the ring of the source. -/
lemma Heard.settle (h : t.Heard) {epoch : ℕ} {leases : List ℕ} (hreader : t.reader.pc = .idle)
    (hloaded : epoch = 0 ∨ t.Loaded epoch leases) : (t.settle epoch leases).Heard := by
  rw [Recording.settle]
  split_ifs with hquiet
  · refine h.finish ⟨fun b hb => Or.inl (Option.some.inj hb).symm, fun _ => rfl⟩ ?_ ?_ hreader
    · rcases hloaded with rfl | hl
      · exact Nat.zero_le _
      · exact hl.le
    · exact hloaded.imp_right fun hl => hl.newest
  · push Not at hquiet
    have hl := hloaded.resolve_left hquiet.1
    exact ⟨h.ring, h.latency, trivial, ⟨⟨hl.pos, hl.leases, hl.le, hl.newest⟩, hquiet.2⟩,
      fun h0 => absurd rfl (h0 _ _), fun x hx => ⟨(h.sound x hx).block, (h.sound x hx).silent⟩,
      h.seen, h.ordered⟩

/-- The source takes the ring of the admitted writer over. -/
lemma Heard.switch (h : t.Heard) {epoch : ℕ} {leases : List ℕ} (hpc : t.pc = .loaded epoch leases)
    (hcurrent : ∀ e, t.current = some e → e = t.epoch) : (t.switch epoch).Heard ∧
      (t.switch epoch).reader.pc = .idle ∧ (t.switch epoch).Loaded epoch leases := by
  have hreader : t.reader.pc = .idle := h.resting fun _ _ h0 => by cases hpc.symm.trans h0
  have hloaded : t.Loaded epoch leases := by
    have hlistens := h.listens
    rw [hpc] at hlistens
    exact hlistens
  rw [Recording.switch]
  cases hring : t.current with
  | none => exact ⟨h, hreader, hloaded⟩
  | some ring =>
      dsimp only
      split_ifs with hepoch
      · have hsame : ring = epoch := (hcurrent ring hring).trans hepoch
        refine ⟨⟨hsame, h.latency, ?_, ?_, fun _ => hreader,
          fun x hx => ⟨(h.sound x hx).block, (h.sound x hx).silent⟩, h.seen, h.ordered⟩, hreader,
          ⟨hloaded.pos, hloaded.leases, hloaded.le, hloaded.newest⟩⟩
        · show Reader.Copies _ _ t.reader.pc
          rw [hreader]
          trivial
        · show Listens _ t.pc
          rw [hpc]
          exact ⟨hloaded.pos, hloaded.leases, hloaded.le, hloaded.newest⟩
      · exact ⟨h, hreader, hloaded⟩

/-- A load of the read of a ring. -/
lemma Heard.load (h : t.Heard) (hm : t.Mapped) {epoch : ℕ} {leases : List ℕ}
    (hpc : t.pc = .reading epoch leases) {r : Reader}
    (hr : t.reader.load (t.rings t.ring) = some r) :
    (if r.pc = .idle then
      ({ t with reader := r } : Recording).finish epoch leases
        (r.returned.drop t.reader.returned.length).head?
    else { t with reader := r }).Heard := by
  have hholds := hm.holds t.ring
  have hlatency : t.reader.latency < (t.rings t.ring).blocks := by
    rw [hm.blocks]
    exact h.latency
  obtain ⟨hsame, hreturned⟩ := h.copies.returned hholds hr
  have hlistens := h.listens
  rw [hpc] at hlistens
  obtain ⟨hloaded, hsource⟩ := hlistens
  have hheard : ({ t with reader := r } : Recording).Heard := by
    refine ⟨h.ring, hsame ▸ h.latency, h.copies.load hholds hlatency hr,
      h.listens.mono le_rfl rfl rfl, fun h0 => absurd hpc (h0 _ _),
      fun x hx => ⟨(h.sound x hx).block, (h.sound x hx).silent⟩, h.seen, h.ordered⟩
  split_ifs with hidle
  · refine hheard.finish ⟨fun b hb => Or.inr ⟨?_, hloaded.leases, ?_⟩, fun h0 => ?_⟩ hloaded.le
      (Or.inr hloaded.newest) hidle
    · exact hloaded.pos.ne'
    · rcases hreturned with hreturned | ⟨w, hlog, hreturned⟩
      · rw [hreturned, List.drop_length] at hb
        cases hb
      · rw [hreturned, List.drop_left] at hb
        cases hb
        refine ⟨w, ?_, rfl⟩
        show Logged (t.rings epoch).written t.reader.next w
        rw [hsource, ← h.ring]
        exact hlog
    · rw [hloaded.leases] at h0
      cases h0
  · exact hheard

/-- **The invariant of a recording track.** -/
structure Tracks (t : Recording) : Prop where
  hosted : t.Hosted t.host
  mapped : t.Mapped
  heard : t.Heard

/-- A step of the host. -/
lemma Tracks.of_host (h : t.Tracks)
    (ht : t' = { t with
      writer := t'.writer
      epoch := t'.epoch
      current := t'.current
      retired := t'.retired
      host := t'.host
      leases := t'.leases }) (hepoch : t.epoch ≤ t'.epoch) (hhosted : t'.Hosted t'.host) :
    t'.Tracks := by
  have hmapped : t'.Mapped := by
    rw [ht]
    exact ⟨h.mapped.writing, h.mapped.fresh, h.mapped.blocks⟩
  refine ⟨hhosted, hmapped, h.heard.of_host ?_ hepoch⟩
  rw [ht]

/-- A step of the source. -/
lemma Tracks.of_source (h : t.Tracks) (ht : t' = { t with
      ring := t'.ring
      source := t'.source
      reader := t'.reader
      pc := t'.pc
      reads := t'.reads }) (hheard : t'.Heard) : t'.Tracks := by
  refine ⟨?_, ?_, hheard⟩
  · have hhost : t'.host = t.host := by rw [ht]
    rw [hhost]
    exact h.hosted.congr (by rw [ht]) (by rw [ht]) (by rw [ht]) (by rw [ht])
  · rw [ht]
    exact ⟨h.mapped.writing, h.mapped.fresh, h.mapped.blocks⟩

/-- A step of a writer. -/
lemma Tracks.of_writer (h : t.Tracks) {e : ℕ} {l : WriterLabel}
    (hs : t.onWriter e l = some t') : t'.Tracks := by
  obtain ⟨hmapped, ring, w, hadvances, ht⟩ := h.mapped.onWriter hs
  refine ⟨?_, hmapped, h.heard.of_rings hadvances ht⟩
  rw [ht]
  exact h.hosted.congr rfl rfl rfl rfl

/-- What a read loads. -/
lemma Tracks.loaded (h : t.Tracks) : t.writer = 0 ∨ t.Loaded t.writer t.leases := by
  rcases h.hosted.word.1 with hzero | ⟨hleases, hpos, hword⟩
  · exact Or.inl hzero
  · right
    rw [hword]
    exact ⟨hpos, hleases, le_rfl, h.heard.seen⟩

lemma settle_eq (t : Recording) (epoch : ℕ) (leases : List ℕ) : t.settle epoch leases = { t with
    ring := (t.settle epoch leases).ring
    source := (t.settle epoch leases).source
    reader := (t.settle epoch leases).reader
    pc := (t.settle epoch leases).pc
    reads := (t.settle epoch leases).reads } := by
  rw [Recording.settle]
  split_ifs <;> rfl

lemma switch_eq (t : Recording) (epoch : ℕ) : t.switch epoch = { t with
    ring := (t.switch epoch).ring
    source := (t.switch epoch).source
    reader := (t.switch epoch).reader
    pc := (t.switch epoch).pc
    reads := (t.switch epoch).reads } := by
  rw [Recording.switch]
  split
  · split_ifs <;> rfl
  · rfl

/-- **Every step keeps the invariant of a recording track.** -/
lemma Tracks.step (h : t.Tracks) {l : RecordingLabel} (hs : t.step l = some t') : t'.Tracks := by
  have hhosted := h.hosted
  cases l with
  | claim =>
      rw [Recording.step] at hs
      split_ifs at hs with hhost
      cases hs
      rw [hhost] at hhosted
      exact h.of_host rfl le_rfl hhosted
  | create ok =>
      rw [Recording.step] at hs
      split_ifs at hs with hhost hfail
      · cases hs
        rw [hhost] at hhosted
        exact h.of_host rfl le_rfl hhosted
      · cases hs
        rw [hhost] at hhosted
        push Not at hfail
        have hleases : t.leases = [] ∧ t.writer = 0 := by
          rcases hhosted with ⟨hleases, hword, -⟩ | ⟨⟨-, hpos, -⟩, hword⟩
          · exact ⟨hleases, hword⟩
          · exact absurd hfail.1 (by omega)
        exact h.of_host rfl (Nat.le_succ _) ⟨hleases.1, hleases.2, Nat.succ_pos _, rfl⟩
  | enroll =>
      rw [Recording.step] at hs
      split_ifs at hs with hhost
      cases hs
      rw [hhost] at hhosted
      obtain ⟨hleases, -, hpos, hcurrent⟩ := hhosted
      refine h.of_host rfl le_rfl (Or.inr ⟨⟨?_, hpos, hcurrent⟩, rfl⟩)
      show t.leases ++ [t.epoch] = [t.epoch]
      rw [hleases]
      rfl
  | drop =>
      rw [Recording.step] at hs
      split_ifs at hs with hhost
      cases hs
      rw [hhost.1] at hhosted
      refine h.of_host rfl le_rfl ?_
      rcases hhosted with ⟨hleases, -⟩ | hadmitted
      · exact absurd hleases hhost.2
      · exact hadmitted
  | withdraw =>
      rw [Recording.step] at hs
      split_ifs at hs with hhost
      cases hs
      rw [hhost] at hhosted
      exact h.of_host rfl le_rfl ⟨hhosted.1, rfl⟩
  | retire =>
      rw [Recording.step] at hs
      split_ifs at hs with hhost
      cases hs
      rw [hhost] at hhosted
      obtain ⟨⟨hleases, -⟩, hword⟩ := hhosted
      refine h.of_host rfl le_rfl (Or.inl ⟨?_, hword, rfl⟩)
      show t.leases.tail = []
      rw [hleases]
      rfl
  | map e =>
      rw [Recording.step] at hs
      split_ifs at hs with hmap
      rw [setWriter_eq] at hs
      cases hs
      exact ⟨hhosted.congr rfl rfl rfl rfl, h.mapped.map hmap.2.2, h.heard.of_host rfl le_rfl⟩
  | write e samples hostTimeNs => exact h.of_writer hs
  | discontinuity e => exact h.of_writer hs
  | store e => exact h.of_writer hs
  | read =>
      rw [Recording.step] at hs
      split_ifs at hs with hidle hnew
      · cases hs
        have hreader : t.reader.pc = .idle := h.heard.resting fun _ _ h0 => by
          cases hidle.symm.trans h0
        have hloaded := h.loaded.resolve_left hnew.1
        exact h.of_source rfl ⟨h.heard.ring, h.heard.latency, h.heard.copies,
          ⟨hloaded.pos, hloaded.leases, hloaded.le, hloaded.newest⟩, fun _ => hreader,
          fun x hx => ⟨(h.heard.sound x hx).block, (h.heard.sound x hx).silent⟩, h.heard.seen,
          h.heard.ordered⟩
      · have hreader : t.reader.pc = .idle := h.heard.resting fun _ _ h0 => by
          cases hidle.symm.trans h0
        rw [Option.some.injEq] at hs
        subst hs
        exact h.of_source (t.settle_eq _ _) (h.heard.settle hreader h.loaded)
  | tryLock ok =>
      rw [Recording.step] at hs
      cases hpc : t.pc with
      | idle =>
          rw [hpc] at hs
          cases hs
      | reading epoch leases =>
          rw [hpc] at hs
          cases hs
      | loaded epoch leases =>
          rw [hpc] at hs
          dsimp only at hs
          have hlistens := h.heard.listens
          rw [hpc] at hlistens
          have hreader : t.reader.pc = .idle := h.heard.resting fun _ _ h0 => by
            cases hpc.symm.trans h0
          split_ifs at hs with hok hhost
          · rw [Option.some.injEq] at hs
            subst hs
            obtain ⟨hheard, hidle, hloaded⟩ :=
              h.heard.switch hpc fun e he => hhosted.current he
            have hswitch := h.of_source (t.switch_eq epoch) hheard
            exact hswitch.of_source ((t.switch epoch).settle_eq _ _)
              (hheard.settle hidle (Or.inr hloaded))
          · rw [Option.some.injEq] at hs
            subst hs
            exact h.of_source (t.settle_eq _ _) (h.heard.settle hreader (Or.inr hlistens))
  | load =>
      rw [Recording.step] at hs
      cases hpc : t.pc with
      | idle =>
          rw [hpc] at hs
          cases hs
      | loaded epoch leases =>
          rw [hpc] at hs
          cases hs
      | reading epoch leases =>
          rw [hpc] at hs
          obtain ⟨r, hr, hs⟩ := Option.map_eq_some_iff.mp hs
          have hheard := h.heard.load h.mapped hpc hr
          rw [hs] at hheard
          refine h.of_source ?_ hheard
          rw [← hs]
          split_ifs <;> rfl

lemma Tracks.of_new {s : Settings} {latency : ℕ} (h : Recording.new s latency = some t) :
    t.Tracks := by
  obtain ⟨ring, hring, h⟩ := Option.bind_eq_some_iff.mp h
  cases h
  obtain ⟨-, hblocks, -⟩ := Ring.create_eq hring
  refine ⟨Or.inl ⟨rfl, rfl, rfl⟩, ⟨fun e w hw => (nomatch hw), fun e _ => ⟨s, hring, rfl⟩,
    fun e => rfl⟩, ⟨rfl, ?_, trivial, trivial, fun _ => rfl, fun x hx => (nomatch hx),
    fun x hx => (nomatch hx), List.Pairwise.nil⟩⟩
  show min _ (ring.blocks - 1) < ring.blocks
  omega

end Recording

/-- **A recording track has one writer, and a read never mixes writers.** In every
interleaving of claims, drops of leases, writes by current and former writers and reads:

* at most one lease is alive;
* a read that returns a block returns silence, or a block that was written into the ring of
  the epoch it loaded, and the lease of that epoch was the one alive at the load;
* a read that loaded an epoch is followed only by reads that loaded none or one as new;
* a read that found no lease alive has returned silence. -/
theorem one_writer {s : Settings} {latency : ℕ} {t₀ t : Recording}
    (h₀ : Recording.new s latency = some t₀) (h : Reaches Recording.step Always t₀ t) :
    t.leases.length ≤ 1 ∧
    (∀ x ∈ t.reads, ∀ b, x.result = some b → b = t.silence ∨
      (x.loaded ≠ 0 ∧ x.leases = [x.loaded] ∧
        ∃ w, Logged (t.rings x.loaded).written b.cursor w ∧ b = w.block b.cursor b.gap)) ∧
    t.reads.Pairwise (fun x y => y.loaded = 0 ∨ x.loaded ≤ y.loaded) ∧
    ∀ x ∈ t.reads, x.leases = [] → x.result = some t.silence := by
  have htracks := h.invariant (P := Recording.Tracks) (Recording.Tracks.of_new h₀)
    fun a l b hp _ hs => hp.step hs
  exact ⟨htracks.hosted.word.2.2, fun x hx => (htracks.heard.sound x hx).block,
    htracks.heard.ordered, fun x hx => (htracks.heard.sound x hx).silent⟩

/-- A track of `tinySettings`. -/
def tinyRecording : Recording where
  descriptor := ⟨tinyFormat, 1, 2⟩
  payloadLen := 1
  rings := fun _ => tinyRing
  reader := Reader.new ⟨tinyFormat, 1, 2⟩ 125000000

lemma new_tiny : Recording.new tinySettings 125000000 = some tinyRecording := by
  rw [Recording.new, create_tiny]
  rfl

/-- A writer is admitted and writes, and is replaced; it goes on writing. -/
def replaced : List RecordingLabel := List.flatten
  [[.claim, .create true, .enroll, .map 1, .write 1 [7] 0], List.replicate 12 (.store 1),
    [.read, .tryLock true], List.replicate 13 .load,
    [.drop, .withdraw, .read, .retire, .claim, .create true, .enroll, .write 1 [8] 0],
    List.replicate 12 (.store 1), [.read, .tryLock false, .map 2, .write 2 [9] 0],
    List.replicate 12 (.store 2), [.read, .tryLock true], List.replicate 13 .load]

theorem one_writer_replaced :
    let t := play Recording.step tinyRecording replaced
    (t.reads.map fun x => (x.loaded, x.leases, x.result.map (·.samples))) =
      [(1, [1], some [7]), (0, [1], some [0x80]), (2, [2], some [0x80]), (2, [2], some [9])] ∧
    t.leases.length ≤ 1 ∧
    (∀ x ∈ t.reads, ∀ b, x.result = some b → b = t.silence ∨
      (x.loaded ≠ 0 ∧ x.leases = [x.loaded] ∧
        ∃ w, Logged (t.rings x.loaded).written b.cursor w ∧ b = w.block b.cursor b.gap)) ∧
    t.reads.Pairwise (fun x y => y.loaded = 0 ∨ x.loaded ≤ y.loaded) ∧
    ∀ x ∈ t.reads, x.leases = [] → x.result = some t.silence := by
  intro t
  have hreach : Reaches Recording.step Always tinyRecording t := Reaches.of_play _ _ _
  exact ⟨by decide +kernel, one_writer new_tiny hreach⟩

end Jackstay.Audio
