import Jackstay.Library.Seqlock
import Jackstay.Library.Transition

/-!
`audio.rs`: the ring of an audio track, its writer and its readers.

A block is a record behind a sequence word: the writer zeroes the word, copies header and
samples, stores the cursor in the word and then in the ring. A reader copies the whole
block and keeps it if the word named its cursor before and after the copy; otherwise it
resynchronises from the write cursor.

Every store of the writer and every load of a reader is a step of its own; headers are
copied field by field and samples byte by byte. Cursors and sample positions are 64-bit
words in the source and numbers without a bound here; the generation wraps at 32 bits.
`Ring.written` and the fields `returned`, `started` and `resyncs` of a reader are history
variables.
-/

namespace Jackstay.Audio

open Seqlock

/-! ### Formats -/

/-- `Layout`. -/
inductive Layout where
  | mono
  | stereo
  | surround21
  | quad
  | surround51
  | surround71
  | discrete
  deriving DecidableEq, Repr

/-- `Sample`. -/
inductive Sample where
  | u8
  | s16
  | s32
  | f32
  deriving DecidableEq, Repr

/-- The discriminant of a layout. -/
def Layout.code : Layout → ℕ
  | .mono => 1
  | .stereo => 2
  | .surround21 => 3
  | .quad => 4
  | .surround51 => 5
  | .surround71 => 6
  | .discrete => 7

/-- The discriminant of a sample format. -/
def Sample.code : Sample → ℕ
  | .u8 => 1
  | .s16 => 2
  | .s32 => 3
  | .f32 => 4

/-- The bytes of one sample. -/
def Sample.bytes : Sample → ℕ
  | .u8 => 1
  | .s16 => 2
  | .s32 => 4
  | .f32 => 4

/-- `Format`. -/
structure Format where
  rate : ℕ
  channels : ℕ
  layout : Layout
  sample : Sample
  deriving DecidableEq, Repr

namespace Format

/-- `Format::frame_bytes`. -/
def frameBytes (f : Format) : ℕ := f.channels * f.sample.bytes

/-- The channels that the positions of a layout call for. -/
def positioned (f : Format) : ℕ :=
  match f.layout with
  | .mono => 1
  | .stereo => 2
  | .surround21 => 3
  | .quad => 4
  | .surround51 => 6
  | .surround71 => 8
  | .discrete => f.channels

/-- `Format::valid`. -/
def valid (f : Format) : Bool :=
  decide (0 < f.rate) && decide (0 < f.channels) && decide (f.channels = f.positioned)

/-- `Format::from_block`, from the fields of a header. -/
def fromBlock (rate channels layout sample : ℕ) : Option Format := do
  let layout ← [Layout.mono, .stereo, .surround21, .quad, .surround51, .surround71, .discrete].find?
    fun l => l.code = layout
  let sample ← [Sample.u8, .s16, .s32, .f32].find? fun s => s.code = sample
  let format : Format := ⟨rate, channels, layout, sample⟩
  if format.valid then some format else none

lemma rate_pos {f : Format} (h : f.valid = true) : 0 < f.rate := by
  simp only [valid, Bool.and_eq_true, decide_eq_true_eq] at h
  exact h.1.1

lemma frameBytes_pos {f : Format} (h : f.valid = true) : 0 < f.frameBytes := by
  simp only [valid, Bool.and_eq_true, decide_eq_true_eq] at h
  have hbytes : 0 < f.sample.bytes := by
    cases f.sample <;> decide
  exact Nat.mul_pos h.1.2 hbytes

/-- A reader decodes the format that a writer has encoded. -/
lemma fromBlock_code {f : Format} (h : f.valid = true) :
    fromBlock f.rate f.channels f.layout.code f.sample.code = some f := by
  obtain ⟨rate, channels, layout, sample⟩ := f
  cases layout <;> cases sample <;> simp [fromBlock, Layout.code, Sample.code] at h ⊢ <;> exact h

end Format

/-- `DISCONTINUITY`. -/
def discontinuityFlag : ℕ := 1

/-- `RECONFIGURATION`. -/
def reconfigurationFlag : ℕ := 2

/-! ### Blocks -/

/-- A block as a writer publishes it: `BlockHeader` and the samples. -/
structure Written where
  samplePosition : ℕ
  hostTimeNs : ℕ
  frames : ℕ
  flags : ℕ
  generation : ℕ
  format : Format
  samples : List UInt8
  deriving DecidableEq, Repr

/-- `Block`: what a read returns. -/
structure Block where
  cursor : ℕ
  samplePosition : ℕ
  hostTimeNs : ℕ
  frames : ℕ
  format : Format
  generation : ℕ
  discontinuity : Bool
  reconfiguration : Bool
  gap : Bool
  samples : List UInt8
  deriving DecidableEq, Repr

/-- The words of a block in the ring. -/
inductive Part where
  | samplePosition
  | hostTimeNs
  | frames
  | flags
  | generation
  | rate
  | channels
  | layout
  | sample
  | byte (i : ℕ)
  deriving DecidableEq, Repr

/-- What a copy of a header and of so many bytes goes through. -/
def parts (bytes : ℕ) : List Part :=
  [.samplePosition, .hostTimeNs, .frames, .flags, .generation, .rate, .channels, .layout,
    .sample] ++ (List.range bytes).map .byte

/-- The words of a written block. -/
def Written.words (w : Written) : Part → ℕ
  | .samplePosition => w.samplePosition
  | .hostTimeNs => w.hostTimeNs
  | .frames => w.frames
  | .flags => w.flags
  | .generation => w.generation
  | .rate => w.format.rate
  | .channels => w.format.channels
  | .layout => w.format.layout.code
  | .sample => w.format.sample.code
  | .byte i => (w.samples.getD i 0).toNat

/-- What a read of a written block is to return. -/
def Written.block (w : Written) (cursor : ℕ) (gap : Bool) : Block where
  cursor := cursor
  samplePosition := w.samplePosition
  hostTimeNs := w.hostTimeNs
  frames := w.frames
  format := w.format
  generation := w.generation
  discontinuity := decide (w.flags &&& discontinuityFlag ≠ 0)
  reconfiguration := decide (w.flags &&& reconfigurationFlag ≠ 0)
  gap := gap
  samples := w.samples

/-- `Descriptor`. -/
structure Descriptor where
  format : Format
  blockFrames : ℕ
  blocks : ℕ
  deriving DecidableEq, Repr

/-- `Settings`; the depth is given in nanoseconds. -/
structure Settings where
  format : Format
  blockFrames : UInt32
  depth : ℕ
  deriving DecidableEq, Repr

/-- `MIN_DEPTH`. -/
def minDepth : ℕ := 250000000

/-! ### The ring -/

/-- `Ring`: the geometry, the blocks and the write cursor. -/
structure Ring where
  blocks : ℕ
  payloadLen : ℕ
  cells : ℕ → Cell Part ℕ := fun _ => ⟨0, fun _ => 0, 0⟩
  latest : ℕ := 0
  written : List Written := []

namespace Ring

/-- `Shared::new`: the ring of a new track, if there is memory for it. -/
def create (s : Settings) : Option Ring :=
  if s.format.valid = false ∨ s.blockFrames = 0 then none
  else if s.depth < minDepth then none
  else
    let blocks := (s.depth * s.format.rate + (s.blockFrames.toNat * 1000000000 - 1)) /
      (s.blockFrames.toNat * 1000000000)
    if blocks < 2 ^ 32 then
      some { blocks := max blocks 2, payloadLen := s.blockFrames.toNat * s.format.frameBytes }
    else none

/-- `Ring::fits`: the descriptor names the depth of the ring and the frames of a block. -/
def fits (r : Ring) (d : Descriptor) : Bool :=
  d.format.valid && decide (d.blockFrames ≠ 0) && decide (r.blocks = d.blocks) &&
    decide (d.blockFrames = r.payloadLen / d.format.frameBytes)

/-- `Ring::block`: the place of a cursor. -/
def index (r : Ring) (cursor : ℕ) : ℕ := (cursor - 1) % r.blocks

/-- The cell of a cursor. -/
def cell (r : Ring) (cursor : ℕ) : Cell Part ℕ := r.cells (r.index cursor)

/-- A store to the block of a cursor. -/
def setCell (r : Ring) (cursor : ℕ) (c : Cell Part ℕ) : Ring :=
  { r with cells := fun k => if k = r.index cursor then c else r.cells k }

lemma cells_setCell (r : Ring) (cursor : ℕ) (c : Cell Part ℕ) :
    (r.setCell cursor c).cells = Function.update r.cells (r.index cursor) c := by
  funext k
  rw [Function.update_apply]
  rfl

/-- `Ring::publish` begins: the sequence word of the block is zeroed. -/
def invalidate (r : Ring) (cursor : ℕ) (block : Written) : Ring :=
  { r.setCell cursor ((r.cell cursor).invalidate cursor) with written := r.written ++ [block] }

end Ring

/-! ### The writer -/

/-- Where `PlaybackWriter::write` is. -/
inductive WriterPc where
  | idle
  | storing (w : Written) (todo : List Part)
  /-- the sequence word names the block; the write cursor does not yet -/
  | sealed (w : Written)
  deriving DecidableEq, Repr

/-- `PlaybackWriter`. -/
structure Writer where
  format : Format
  generation : ℕ := 1
  position : ℕ := 0
  cursor : ℕ := 0
  flags : ℕ := 0
  pc : WriterPc := .idle
  deriving DecidableEq, Repr

/-- What a writer may be asked to do. -/
inductive WriterLabel where
  | write (samples : List UInt8) (hostTimeNs : ℕ)
  | discontinuity
  | reconfigure (format : Format)
  /-- the next store of a block that is being written -/
  | store
  deriving DecidableEq, Repr

namespace Writer

/-- `PlaybackWriter::discontinuity`. -/
def discontinuity (w : Writer) : Writer := { w with flags := w.flags ||| discontinuityFlag }

/-- `PlaybackWriter::reconfigure`; an error changes nothing. -/
def reconfigure (w : Writer) (payloadLen : ℕ) (format : Format) : Writer :=
  if format.valid = false ∨ payloadLen < format.frameBytes ∨
      2 ^ 32 ≤ payloadLen / format.frameBytes then w
  else { w with
    format
    generation := (w.generation + 1) % 2 ^ 32
    flags := w.flags ||| reconfigurationFlag }

/-- The block that `write` publishes next. -/
def next (w : Writer) (samples : List UInt8) (hostTimeNs : ℕ) : Written where
  samplePosition := w.position
  hostTimeNs := hostTimeNs
  frames := samples.length / w.format.frameBytes % 2 ^ 32
  flags := w.flags
  generation := w.generation
  format := w.format
  samples := samples

/-- `PlaybackWriter::write`, up to the store that zeroes the sequence word; an error changes
nothing. -/
def write (r : Ring) (w : Writer) (samples : List UInt8) (hostTimeNs : ℕ) : Ring × Writer :=
  if samples = [] ∨ samples.length % w.format.frameBytes ≠ 0 ∨ r.payloadLen < samples.length then
    (r, w)
  else
    let block := w.next samples hostTimeNs
    let cursor := w.cursor + 1
    (r.invalidate cursor block,
      { w with cursor, flags := 0, pc := .storing block (parts samples.length) })

/-- The next store of `write`. -/
def store (r : Ring) (w : Writer) : Option (Ring × Writer) :=
  match w.pc with
  | .idle => none
  | .storing block (p :: todo) =>
      some (r.setCell w.cursor ((r.cell w.cursor).store p (block.words p)),
        { w with pc := .storing block todo })
  | .storing block [] =>
      some (r.setCell w.cursor ((r.cell w.cursor).publish w.cursor), { w with pc := .sealed block })
  | .sealed block =>
      some ({ r with latest := w.cursor },
        { w with position := w.position + block.frames, pc := .idle })

/-- **One step of a writer.** -/
def step (r : Ring) (w : Writer) : WriterLabel → Option (Ring × Writer)
  | .store => w.store r
  | .write samples hostTimeNs => if w.pc = .idle then some (w.write r samples hostTimeNs) else none
  | .discontinuity => if w.pc = .idle then some (r, w.discontinuity) else none
  | .reconfigure format =>
      if w.pc = .idle then some (r, w.reconfigure r.payloadLen format) else none

end Writer

/-! ### A reader -/

/-- Where `PlaybackReader::read` is; the number says how many turns of its loop are left. -/
inductive ReaderPc where
  | idle
  | latest (n : ℕ)
  | first (n : ℕ)
  | copying (n first : ℕ) (todo : List Part)
  | resync (n : ℕ)
  deriving DecidableEq, Repr

/-- A resynchronisation: the cursors before and after, and the write cursor it loaded. -/
structure Resync where
  before : ℕ
  after : ℕ
  latest : ℕ
  deriving DecidableEq, Repr

/-- `PlaybackReader`. -/
structure Reader where
  latency : ℕ
  next : ℕ := 0
  gap : Bool := false
  gaps : ℕ := 0
  underruns : ℕ := 0
  payload : Part → ℕ := fun _ => 0
  pc : ReaderPc := .idle
  /-- the first cursor that the reader asked for -/
  started : Option ℕ := none
  returned : List Block := []
  resyncs : List Resync := []

namespace Reader

/-- `PlaybackReader::new`; the latency is given in nanoseconds. -/
def new (d : Descriptor) (latency : ℕ) : Reader where
  latency := min ((latency * d.format.rate + (d.blockFrames * 1000000000 - 1)) /
    (d.blockFrames * 1000000000)) (d.blocks - 1)

/-- `PlaybackReader::start`. -/
def start (r : Reader) (latest : ℕ) : ℕ := max (latest + 1 - r.latency) 1

/-- A read that returns nothing. -/
def underrun (r : Reader) : Reader := { r with underruns := r.underruns + 1, pc := .idle }

/-- The block that has been copied, if its header makes sense. -/
def decode (r : Reader) (payloadLen : ℕ) : Option Block := do
  let format ← Format.fromBlock (r.payload .rate) (r.payload .channels) (r.payload .layout)
    (r.payload .sample)
  let frames := r.payload .frames
  if 0 < frames ∧ frames * format.frameBytes ≤ payloadLen then
    some {
      cursor := r.next
      samplePosition := r.payload .samplePosition
      hostTimeNs := r.payload .hostTimeNs
      frames
      format
      generation := r.payload .generation
      discontinuity := decide (r.payload .flags &&& discontinuityFlag ≠ 0)
      reconfiguration := decide (r.payload .flags &&& reconfigurationFlag ≠ 0)
      gap := r.gap
      samples := (List.range (frames * format.frameBytes)).map fun i =>
        UInt8.ofNat (r.payload (.byte i)) }
  else none

/-- The first read of a ring that has a block picks its cursor. -/
def aim (r : Reader) (latest : ℕ) : Reader :=
  if r.next = 0 ∧ 0 < latest then
    { r with next := r.start latest, started := some (r.start latest) }
  else r

/-- A turn of the loop, once the write cursor has been loaded. -/
def turn (r : Reader) (ring : Ring) (n : ℕ) : Reader :=
  let r := r.aim ring.latest
  if r.next = 0 ∨ ring.latest < r.next then r.underrun
  else if ring.latest - r.next < ring.blocks then { r with pc := .first n }
  else { r with pc := .resync n }

/-- The block is returned. -/
def yieldBlock (r : Reader) (b : Block) : Reader :=
  { r with next := r.next + 1, gap := false, pc := .idle, returned := r.returned ++ [b] }

/-- `self.gaps += 1; self.gap = true; self.next = self.start(ring.latest())`. -/
def resynchronise (r : Reader) (latest n : ℕ) : Reader :=
  { r with
    gaps := r.gaps + 1
    gap := true
    next := r.start latest
    pc := .latest n
    resyncs := r.resyncs ++ [⟨r.next, r.start latest, latest⟩] }

/-- The next load of `read`. -/
def load (r : Reader) (ring : Ring) : Option Reader :=
  match r.pc with
  | .idle => none
  | .latest 0 => some r.underrun
  | .latest (n + 1) => some (r.turn ring n)
  | .first n =>
      some { r with pc := .copying n (ring.cell r.next).sequence (parts ring.payloadLen) }
  | .copying n first (p :: todo) =>
      some { r with
        payload := Function.update r.payload p ((ring.cell r.next).words p)
        pc := .copying n first todo }
  | .copying n first [] =>
      if first = r.next ∧ (ring.cell r.next).sequence = r.next then
        match r.decode ring.payloadLen with
        | some b => some (r.yieldBlock b)
        | none => some { r with pc := .resync n }
      else some { r with pc := .resync n }
  | .resync n => some (r.resynchronise ring.latest n)

/-- `PlaybackReader::read` is called. -/
def read (r : Reader) : Option Reader :=
  if r.pc = .idle then some { r with pc := .latest 2 } else none

end Reader

end Jackstay.Audio
