import Jackstay.Video.ControlPage

/-!
`native.rs`: a producer of native frames, which are published by reference.

`publish` claims a surface of its pool, stages the frame into it, signals the fence and
pushes a descriptor onto the control page. A surface that is named by a live entry of the
page is not offered to the backend. `replace_pool` takes another pool; entries that name
surfaces of the old one stay on the page.

The backend may answer whatever it likes: its answers come with the call. A pool is its id.
The stores of `push` and the loads of a reader are steps of their own. Arithmetic that
overflows and an assertion that fails are a panic, after which the producer is not called
again; the assertion on the sequence is the stronger one, and that of `push` is left out.
Sequences, fence values and counts of drops saturate at their widths; the cursors of the page
are numbers without a bound, and so are those that the producer keeps of them.

`pools`, `staged` and `published` are history variables: the pools that the producer has
had, the calls of `stage_frame`, and the frames that were pushed, each with its surface.

* `NativeTrackProducer.candidates`: the surfaces that the backend may claim.
* `NativeTrackProducer.step`: one step of the producer, or of a reader of its page.
-/

namespace Jackstay.Video

/-- `NativeStreamParams`. -/
structure NativeStreamParams where
  width : ℕ
  height : ℕ
  pixelFormat : ℕ
  colorSpace : ℕ
  modifier : ℕ
  deriving DecidableEq, Repr

/-- `PoolExhaustionPolicy`. -/
inductive PoolExhaustionPolicy where
  | dropFrame
  | fail
  deriving DecidableEq, Repr

/-- `PublishOutcome`. -/
inductive PublishOutcome where
  | published (cursor : ℕ)
  | dropped
  deriving DecidableEq, Repr

/-- `SlotReuseCandidate`. -/
structure SlotReuseCandidate where
  slotId : ℕ
  lastCursor : ℕ
  deriving DecidableEq, Repr

/-- `SlotClaim`. -/
inductive SlotClaim where
  | ready (slotId : ℕ)
  | wouldBlock
  deriving DecidableEq, Repr

/-- The errors of the producer. -/
inductive NativeError where
  | nativeBackend (operation message : String)
  | surfacePoolExhausted (slotCount : ℕ)
  deriving DecidableEq, Repr

/-- What a backend is to its producer: the kind of its payloads, and the id of its fence. -/
structure Backend where
  payloadKind : ℕ
  fenceId : ℕ
  deriving DecidableEq, Repr

/-- What a backend answers to one `publish`, call by call. -/
structure Answers where
  /-- `frame_slot_hint` -/
  hint : Option ℕ := none
  /-- `claim_reusable_slot` -/
  claim : Except NativeError SlotClaim
  /-- `stage_frame` -/
  stage : Except NativeError Unit := .ok ()
  /-- `signal_fence` -/
  signal : Except NativeError Unit := .ok ()

/-- A surface: a pool and a slot of it. -/
abbrev Surface := ℕ × ℕ

/-- Where `publish` is. -/
inductive PublishPc where
  | idle
  /-- the descriptor of this slot is being pushed -/
  | pushing (slotId : ℕ)
  | panicked
  deriving DecidableEq, Repr

/-- `NativeTrackProducer`. -/
structure NativeTrackProducer (F : Type) where
  backend : Backend
  params : NativeStreamParams
  page : Page
  pool : ℕ
  retiredPools : List ℕ := []
  poolSlotCount : ℕ
  exhaustionPolicy : PoolExhaustionPolicy
  slotCursors : List ℕ
  nextSlotHint : ℕ := 0
  lastCursor : ℕ := 0
  sequence : ℕ := 0
  fenceValue : ℕ := 0
  pendingDropped : ℕ := 0
  producerDropCount : ℕ := 0
  pc : PublishPc := .idle
  /-- what `publish` has returned, or the error of `replace_pool` -/
  result : Except NativeError PublishOutcome := .ok .dropped
  pools : List ℕ
  staged : List (Surface × F) := []
  published : List (Surface × F) := []

/-- `saturating_add(1)` on words of this width. -/
def saturatingSucc (width n : ℕ) : ℕ := min (n + 1) (2 ^ width - 1)

lemma saturatingSucc_of_lt {width n : ℕ} (h : n + 1 < 2 ^ width) :
    saturatingSucc width n = n + 1 := by
  rw [saturatingSucc]
  omega

namespace NativeTrackProducer

variable {F : Type}

/-- The error of a pool that the live entries could pin. -/
def tooSmall (operation : String) (poolSlotCount capacity : ℕ) : NativeError :=
  .nativeBackend operation (s!"surface pool ({poolSlotCount} slots) must exceed " ++
    s!"the rounded ring capacity ({capacity})")

/-- `from_allocated_parts`. -/
def fromAllocatedParts (backend : Backend) (params : NativeStreamParams)
    (ringCapacity poolSlotCount pool : ℕ) (exhaustionPolicy : PoolExhaustionPolicy) :
    Except NativeError (NativeTrackProducer F) :=
  let page := Page.new ringCapacity
  if poolSlotCount ≤ page.slotCapacity then
    .error (tooSmall "create-native-producer" poolSlotCount page.slotCapacity)
  else .ok {
    backend, params, page, pool, poolSlotCount, exhaustionPolicy
    slotCursors := List.replicate poolSlotCount 0
    pools := [pool] }

/-- `replace_pool`. -/
def replacePool (p : NativeTrackProducer F) (params : NativeStreamParams) (poolSlotCount pool : ℕ) :
    NativeTrackProducer F :=
  if poolSlotCount ≤ p.page.slotCapacity then
    { p with
      result := .error (tooSmall "reconfigure-native-producer" poolSlotCount p.page.slotCapacity) }
  else
    let retired := p.retiredPools ++ [p.pool]
    { p with
      pool, params, poolSlotCount
      retiredPools := retired.drop (retired.length - 2)
      slotCursors := List.replicate poolSlotCount 0
      nextSlotHint := 0
      pools := p.pools ++ [pool] }

/-- The first cursor of the live window, as the producer computes it. -/
def oldestLiveCursor (p : NativeTrackProducer F) : ℕ :=
  p.lastCursor - min p.lastCursor p.page.slotCapacity + 1

/-- The candidates that `claim_slot` offers to the backend. -/
def candidates (p : NativeTrackProducer F) (hint : Option ℕ) : List SlotReuseCandidate :=
  (List.range p.poolSlotCount).filterMap fun offset =>
    let slotId := (p.nextSlotHint + offset) % p.poolSlotCount
    if hint.any (· != slotId) then none
    else
      let publishedAt := p.slotCursors.getD slotId 0
      if publishedAt ≠ 0 ∧ p.oldestLiveCursor ≤ publishedAt then none
      else some { slotId, lastCursor := publishedAt }

/-- The descriptor of a frame in this slot. -/
def entry (p : NativeTrackProducer F) (slotId timestampNs : ℕ) : PendingVideoRingEntry where
  sequence := p.sequence
  timestampNs := timestampNs
  width := p.params.width
  height := p.params.height
  stride := 0
  pixelFormat := p.params.pixelFormat
  poolId := p.pool
  slotId := slotId
  payloadOffset := 0
  payloadLen := 0
  colorSpace := p.params.colorSpace
  syncKind := 3
  damageKind := 1
  damageBaseSequence := p.sequence
  droppedBeforePublish := p.pendingDropped
  producerDropCount := p.producerDropCount
  payloadKind := p.backend.payloadKind
  modifier := p.params.modifier
  fenceId := p.backend.fenceId
  fenceValue := p.fenceValue
  flags := 0

/-- A counter is at its end, and the assertion on it fails. -/
def exhausted (n : ℕ) : Prop := 2 ^ 64 - 1 ≤ saturatingSucc 64 n

instance (n : ℕ) : Decidable (exhausted n) := inferInstanceAs (Decidable (_ ≤ _))

/-- No candidate could be claimed. -/
def onExhausted (p : NativeTrackProducer F) : NativeTrackProducer F :=
  match p.exhaustionPolicy with
  | .dropFrame =>
      if exhausted p.sequence then { p with pc := .panicked }
      else { p with
        sequence := saturatingSucc 64 p.sequence
        pendingDropped := saturatingSucc 32 p.pendingDropped
        producerDropCount := saturatingSucc 64 p.producerDropCount
        result := .ok .dropped }
  | .fail => { p with result := .error (.surfacePoolExhausted p.poolSlotCount) }

/-- `stage_frame` is called. -/
def stage (p : NativeTrackProducer F) (frame : F) (slotId : ℕ) : NativeTrackProducer F :=
  { p with staged := p.staged ++ [((p.pool, slotId), frame)] }

/-- The sequence and the fence of a staged frame. -/
def advance (p : NativeTrackProducer F) : NativeTrackProducer F :=
  { p with
    sequence := saturatingSucc 64 p.sequence
    fenceValue := saturatingSucc 64 p.fenceValue }

/-- `push` is called. -/
def push (p : NativeTrackProducer F) (frame : F) (timestampNs slotId : ℕ) :
    NativeTrackProducer F :=
  { p with
    page := { p.page with push := .config (p.entry slotId timestampNs) }
    pc := .pushing slotId
    published := p.published ++ [((p.pool, slotId), frame)] }

/-- A slot has been claimed: the frame is staged, the fence signalled, and `push` is called. -/
def onClaimed (p : NativeTrackProducer F) (frame : F) (timestampNs slotId : ℕ) (a : Answers) :
    NativeTrackProducer F :=
  let p := p.stage frame slotId
  match a.stage with
  | .error e => { p with result := .error e }
  | .ok () =>
      if exhausted p.sequence ∨ exhausted p.fenceValue then { p with pc := .panicked }
      else match a.signal with
        | .error e => { p.advance with result := .error e }
        | .ok () => p.advance.push frame timestampNs slotId

/-- `publish`, up to the stores of `push`. -/
def publish (p : NativeTrackProducer F) (frame : F) (timestampNs : ℕ) (a : Answers) :
    NativeTrackProducer F :=
  -- the sums of `claim_slot` are `u32`
  if 2 ^ 32 < p.nextSlotHint + p.poolSlotCount then { p with pc := .panicked }
  else match a.claim with
    | .error e => { p with result := .error e }
    | .ok .wouldBlock => p.onExhausted
    | .ok (.ready slotId) => p.onClaimed frame timestampNs slotId a

/-- `push` has returned. -/
def finish (p : NativeTrackProducer F) (slotId : ℕ) : NativeTrackProducer F :=
  let cursor := p.page.producerCursor
  { p with
    pendingDropped := 0
    lastCursor := cursor
    slotCursors := p.slotCursors.set slotId cursor
    nextSlotHint := (slotId + 1) % p.poolSlotCount
    pc := .idle
    result := .ok (.published cursor) }

end NativeTrackProducer

/-- What may happen next to a producer. `timestampNs` is what `publish` stamps. -/
inductive NativeLabel (F : Type) where
  | publish (frame : F) (timestampNs : ℕ) (answers : Answers)
  /-- a store of `push` -/
  | store
  /-- `push` returns -/
  | finish
  /-- `reconfigure` and `replace_allocated_pool`, with a pool that has been allocated -/
  | replacePool (params : NativeStreamParams) (poolSlotCount pool : ℕ)
  /-- a reader of the page calls `read_entry_for_cursor` -/
  | read (cursor : ℕ)
  | load

/-- **One step of a producer.** -/
def NativeTrackProducer.step {F : Type} (p : NativeTrackProducer F) :
    NativeLabel F → Option (NativeTrackProducer F)
  | .publish frame timestampNs answers =>
      if p.pc = .idle then some (p.publish frame timestampNs answers) else none
  | .store => (p.page.step .store).map fun page => { p with page }
  | .finish =>
      match p.pc with
      | .pushing slotId => if p.page.push = .idle then some (p.finish slotId) else none
      | _ => none
  | .replacePool params poolSlotCount pool =>
      if p.pc = .idle then some (p.replacePool params poolSlotCount pool) else none
  | .read cursor => (p.page.step (.read cursor)).map fun page => { p with page }
  | .load => (p.page.step .load).map fun page => { p with page }

end Jackstay.Video
