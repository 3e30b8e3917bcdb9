import Jackstay.Library.Seqlock
import Jackstay.Library.Transition

/-!
`control_page.rs`: the page that a video producer shares with its readers.

`push` splits an entry into a frame slot and a stream config. A config that repeats the
last one is not written again; a slot names its config by the low 32 bits of the
generation. Slots and configs are records behind sequence words, each written in a ring
of its own. `read_entry_for_cursor` validates the slot first and then the config it names.

Every store of the producer and every load of the reader is a step of its own, and a
record is copied field by field, in either direction. Cursors and generations are 64-bit
words in the source, where `push` saturates at the last cursor and asserts that it does not
come to it; here they are the numbers of pushes and of configs, without a bound. The fields
of the records are numbers that are only copied. `pushes` and `bodies` are history variables.
-/

namespace Jackstay.Video

open Seqlock

/-- `PendingVideoRingEntry`: a frame as a producer submits it. -/
structure PendingVideoRingEntry where
  sequence : ℕ
  timestampNs : ℕ
  width : ℕ
  height : ℕ
  stride : ℕ
  pixelFormat : ℕ
  poolId : ℕ
  slotId : ℕ
  payloadOffset : ℕ
  payloadLen : ℕ
  colorSpace : ℕ
  syncKind : ℕ
  damageKind : ℕ
  damageBaseSequence : ℕ
  droppedBeforePublish : ℕ
  producerDropCount : ℕ
  payloadKind : ℕ
  modifier : ℕ
  fenceId : ℕ
  fenceValue : ℕ
  flags : ℕ
  deriving DecidableEq, Repr

/-- `FrameSlot`, without its sequence word. -/
structure FrameSlot where
  sequence : ℕ
  timestampNs : ℕ
  poolId : ℕ
  payloadOffset : ℕ
  payloadLen : ℕ
  fenceValue : ℕ
  damageBaseSequence : ℕ
  producerDropCount : ℕ
  slotId : ℕ
  configGeneration : ℕ
  payloadKind : ℕ
  damageKind : ℕ
  droppedBeforePublish : ℕ
  flags : ℕ
  deriving DecidableEq, Repr

/-- `StreamConfig`, without its sequence word. -/
structure StreamConfig where
  width : ℕ
  height : ℕ
  stride : ℕ
  pixelFormat : ℕ
  colorSpace : ℕ
  syncKind : ℕ
  modifier : ℕ
  fenceId : ℕ
  deriving DecidableEq, Repr

/-- `VideoRingEntry`: a frame slot merged with the stream config it names. -/
structure VideoRingEntry where
  cursor : ℕ
  sequence : ℕ
  timestampNs : ℕ
  configGeneration : ℕ
  width : ℕ
  height : ℕ
  stride : ℕ
  pixelFormat : ℕ
  poolId : ℕ
  slotId : ℕ
  payloadOffset : ℕ
  payloadLen : ℕ
  colorSpace : ℕ
  syncKind : ℕ
  damageKind : ℕ
  damageBaseSequence : ℕ
  droppedBeforePublish : ℕ
  producerDropCount : ℕ
  payloadKind : ℕ
  modifier : ℕ
  fenceId : ℕ
  fenceValue : ℕ
  flags : ℕ
  deriving DecidableEq, Repr

/-- `VideoRingEntry::from_parts`. -/
def VideoRingEntry.fromParts (cursor : ℕ) (slot : FrameSlot) (generation : ℕ)
    (config : StreamConfig) : VideoRingEntry where
  cursor := cursor
  sequence := slot.sequence
  timestampNs := slot.timestampNs
  configGeneration := generation
  width := config.width
  height := config.height
  stride := config.stride
  pixelFormat := config.pixelFormat
  poolId := slot.poolId
  slotId := slot.slotId
  payloadOffset := slot.payloadOffset
  payloadLen := slot.payloadLen
  colorSpace := config.colorSpace
  syncKind := config.syncKind
  damageKind := slot.damageKind
  damageBaseSequence := slot.damageBaseSequence
  droppedBeforePublish := slot.droppedBeforePublish
  producerDropCount := slot.producerDropCount
  payloadKind := slot.payloadKind
  modifier := config.modifier
  fenceId := config.fenceId
  fenceValue := slot.fenceValue
  flags := slot.flags

/-- `VideoRingReadError`. -/
inductive VideoRingReadError where
  | empty
  | notPublished (requested latest : ℕ)
  | lapped (requested oldest latest : ℕ)
  | slotSequenceMismatch (requested first second : ℕ)
  | configOverwritten (requested generation first second : ℕ)
  deriving DecidableEq, Repr

/-! ### The words of the records -/

/-- The fields of a frame slot, in the order of its layout. -/
inductive SlotField where
  | sequence
  | timestampNs
  | poolId
  | payloadOffset
  | payloadLen
  | fenceValue
  | damageBaseSequence
  | producerDropCount
  | slotId
  | configGeneration
  | payloadKind
  | damageKind
  | droppedBeforePublish
  | flags
  deriving DecidableEq, Repr

/-- The fields of a stream config, in the order of its layout. -/
inductive ConfigField where
  | width
  | height
  | stride
  | pixelFormat
  | colorSpace
  | syncKind
  | modifier
  | fenceId
  deriving DecidableEq, Repr

/-- What a copy of a frame slot goes through. -/
def SlotField.all : List SlotField :=
  [.sequence, .timestampNs, .poolId, .payloadOffset, .payloadLen, .fenceValue,
    .damageBaseSequence, .producerDropCount, .slotId, .configGeneration, .payloadKind,
    .damageKind, .droppedBeforePublish, .flags]

/-- What a copy of a stream config goes through. -/
def ConfigField.all : List ConfigField :=
  [.width, .height, .stride, .pixelFormat, .colorSpace, .syncKind, .modifier, .fenceId]

lemma SlotField.mem_all (f : SlotField) : f ∈ SlotField.all := by
  cases f <;> decide

lemma ConfigField.mem_all (f : ConfigField) : f ∈ ConfigField.all := by
  cases f <;> decide

/-- The words of a frame slot. -/
def FrameSlot.words (s : FrameSlot) : SlotField → ℕ
  | .sequence => s.sequence
  | .timestampNs => s.timestampNs
  | .poolId => s.poolId
  | .payloadOffset => s.payloadOffset
  | .payloadLen => s.payloadLen
  | .fenceValue => s.fenceValue
  | .damageBaseSequence => s.damageBaseSequence
  | .producerDropCount => s.producerDropCount
  | .slotId => s.slotId
  | .configGeneration => s.configGeneration
  | .payloadKind => s.payloadKind
  | .damageKind => s.damageKind
  | .droppedBeforePublish => s.droppedBeforePublish
  | .flags => s.flags

/-- The frame slot that has these words. -/
def FrameSlot.ofWords (w : SlotField → ℕ) : FrameSlot where
  sequence := w .sequence
  timestampNs := w .timestampNs
  poolId := w .poolId
  payloadOffset := w .payloadOffset
  payloadLen := w .payloadLen
  fenceValue := w .fenceValue
  damageBaseSequence := w .damageBaseSequence
  producerDropCount := w .producerDropCount
  slotId := w .slotId
  configGeneration := w .configGeneration
  payloadKind := w .payloadKind
  damageKind := w .damageKind
  droppedBeforePublish := w .droppedBeforePublish
  flags := w .flags

/-- The words of a stream config. -/
def StreamConfig.words (c : StreamConfig) : ConfigField → ℕ
  | .width => c.width
  | .height => c.height
  | .stride => c.stride
  | .pixelFormat => c.pixelFormat
  | .colorSpace => c.colorSpace
  | .syncKind => c.syncKind
  | .modifier => c.modifier
  | .fenceId => c.fenceId

/-- The stream config that has these words. -/
def StreamConfig.ofWords (w : ConfigField → ℕ) : StreamConfig where
  width := w .width
  height := w .height
  stride := w .stride
  pixelFormat := w .pixelFormat
  colorSpace := w .colorSpace
  syncKind := w .syncKind
  modifier := w .modifier
  fenceId := w .fenceId

lemma FrameSlot.ofWords_eq {w : SlotField → ℕ} {s : FrameSlot}
    (h : ∀ f ∈ SlotField.all, w f = s.words f) : FrameSlot.ofWords w = s := by
  have hw : w = s.words := funext fun f => h f f.mem_all
  rw [hw]
  rfl

lemma StreamConfig.ofWords_eq {w : ConfigField → ℕ} {c : StreamConfig}
    (h : ∀ f ∈ ConfigField.all, w f = c.words f) : StreamConfig.ofWords w = c := by
  have hw : w = c.words := funext fun f => h f f.mem_all
  rw [hw]
  rfl

namespace PendingVideoRingEntry

/-- The stream-level values of an entry. -/
def body (e : PendingVideoRingEntry) : StreamConfig where
  width := e.width
  height := e.height
  stride := e.stride
  pixelFormat := e.pixelFormat
  colorSpace := e.colorSpace
  syncKind := e.syncKind
  modifier := e.modifier
  fenceId := e.fenceId

/-- The frame slot of an entry; the generation is truncated to `u32`. -/
def slot (e : PendingVideoRingEntry) (generation : ℕ) : FrameSlot where
  sequence := e.sequence
  timestampNs := e.timestampNs
  poolId := e.poolId
  payloadOffset := e.payloadOffset
  payloadLen := e.payloadLen
  fenceValue := e.fenceValue
  damageBaseSequence := e.damageBaseSequence
  producerDropCount := e.producerDropCount
  slotId := e.slotId
  configGeneration := generation % 2 ^ 32
  payloadKind := e.payloadKind
  damageKind := e.damageKind
  droppedBeforePublish := e.droppedBeforePublish
  flags := e.flags

/-- What a reader is to get for an entry: every field of it, with its place in the ring. -/
def entry (e : PendingVideoRingEntry) (cursor generation : ℕ) : VideoRingEntry where
  cursor := cursor
  sequence := e.sequence
  timestampNs := e.timestampNs
  configGeneration := generation
  width := e.width
  height := e.height
  stride := e.stride
  pixelFormat := e.pixelFormat
  poolId := e.poolId
  slotId := e.slotId
  payloadOffset := e.payloadOffset
  payloadLen := e.payloadLen
  colorSpace := e.colorSpace
  syncKind := e.syncKind
  damageKind := e.damageKind
  damageBaseSequence := e.damageBaseSequence
  droppedBeforePublish := e.droppedBeforePublish
  producerDropCount := e.producerDropCount
  payloadKind := e.payloadKind
  modifier := e.modifier
  fenceId := e.fenceId
  fenceValue := e.fenceValue
  flags := e.flags

lemma fromParts_slot_body (e : PendingVideoRingEntry) (cursor generation n : ℕ) :
    VideoRingEntry.fromParts cursor (e.slot n) generation e.body = e.entry cursor generation := rfl

end PendingVideoRingEntry

/-! ### The page, its producer and a reader -/

/-- `ring_capacity_for`. -/
def ringCapacityFor (requested : ℕ) : ℕ := (max requested 1).nextPowerOfTwo

/-- `CONFIG_RING_CAPACITY`. -/
def configRingCapacity : ℕ := 4

/-- Where `push` is. -/
inductive PushPc where
  | idle
  /-- `ensure_stream_config`, before its first store -/
  | config (e : PendingVideoRingEntry)
  | configStore (e : PendingVideoRingEntry) (generation : ℕ) (todo : List ConfigField)
  | configCursor (e : PendingVideoRingEntry) (generation : ℕ)
  /-- the rest of `push`, for the generation that `ensure_stream_config` has returned -/
  | slot (e : PendingVideoRingEntry) (generation : ℕ)
  | slotStore (e : PendingVideoRingEntry) (generation cursor : ℕ) (todo : List SlotField)
  | cursor (cursor : ℕ)
  deriving DecidableEq, Repr

/-- Where `read_entry_for_cursor` is. -/
inductive ReadPc where
  | idle
  | latest (cursor : ℕ)
  | oldest (cursor latest : ℕ)
  | slotFirst (cursor : ℕ)
  | slotCopy (cursor first : ℕ) (todo : List SlotField)
  | configFirst (cursor : ℕ) (slot : FrameSlot)
  | configCopy (cursor : ℕ) (slot : FrameSlot) (first : ℕ) (todo : List ConfigField)
  | returned (cursor : ℕ) (result : Except VideoRingReadError VideoRingEntry)
  deriving DecidableEq, Repr

/-- The page with its producer and a reader. -/
structure Page where
  slotCapacity : ℕ
  slots : ℕ → Cell SlotField ℕ := fun _ => ⟨0, fun _ => 0, 0⟩
  configs : ℕ → Cell ConfigField ℕ := fun _ => ⟨0, fun _ => 0, 0⟩
  producerCursor : ℕ := 0
  configCursor : ℕ := 0
  /-- the producer's cache of the live config -/
  producerConfig : Option (ℕ × StreamConfig) := none
  push : PushPc := .idle
  read : ReadPc := .idle
  /-- what the reader has copied of a slot and of a config -/
  slotCopy : SlotField → ℕ := fun _ => 0
  configCopy : ConfigField → ℕ := fun _ => 0
  pushes : List (PendingVideoRingEntry × ℕ) := []
  bodies : List StreamConfig := []

namespace Page

/-- `VideoTrackControlPage::new`. -/
def new (capacity : ℕ) : Page := { slotCapacity := ringCapacityFor capacity }

/-- The slot of a cursor. -/
def slotIndex (p : Page) (cursor : ℕ) : ℕ := (cursor - 1) &&& (p.slotCapacity - 1)

/-- The place of a config in its ring. -/
def configIndex (generation : ℕ) : ℕ := generation &&& (configRingCapacity - 1)

/-- A store of the producer to a frame slot. -/
def setSlot (p : Page) (index : ℕ) (c : Cell SlotField ℕ) : Page :=
  { p with slots := fun k => if k = index then c else p.slots k }

/-- A store of the producer to a stream config. -/
def setConfig (p : Page) (index : ℕ) (c : Cell ConfigField ℕ) : Page :=
  { p with configs := fun k => if k = index then c else p.configs k }

lemma slots_setSlot (p : Page) (index : ℕ) (c : Cell SlotField ℕ) :
    (p.setSlot index c).slots = Function.update p.slots index c := by
  funext k
  rw [Function.update_apply]
  rfl

lemma configs_setConfig (p : Page) (index : ℕ) (c : Cell ConfigField ℕ) :
    (p.setConfig index c).configs = Function.update p.configs index c := by
  funext k
  rw [Function.update_apply]
  rfl

/-- The first store of a new config: the sequence word is zeroed. -/
def beginConfig (p : Page) (e : PendingVideoRingEntry) : Page :=
  let generation := p.configCursor + 1
  let index := configIndex generation
  { p.setConfig index ((p.configs index).invalidate generation) with
    bodies := p.bodies ++ [e.body]
    push := .configStore e generation ConfigField.all }

/-- One step of `push`. -/
def pushStep (p : Page) : Option Page :=
  match p.push with
  | .idle => none
  | .config e =>
      match p.producerConfig with
      | some (generation, cached) =>
          if cached = e.body then some { p with push := .slot e generation }
          else some (p.beginConfig e)
      | none => some (p.beginConfig e)
  | .configStore e generation [] =>
      let index := configIndex generation
      some { p.setConfig index ((p.configs index).publish generation) with
        push := .configCursor e generation }
  | .configStore e generation (f :: todo) =>
      let index := configIndex generation
      some { p.setConfig index ((p.configs index).store f (e.body.words f)) with
        push := .configStore e generation todo }
  | .configCursor e generation =>
      some { p with
        configCursor := generation
        producerConfig := some (generation, e.body)
        push := .slot e generation }
  | .slot e generation =>
      let cursor := p.producerCursor + 1
      let index := p.slotIndex cursor
      some { p.setSlot index ((p.slots index).invalidate cursor) with
        pushes := p.pushes ++ [(e, generation)]
        push := .slotStore e generation cursor SlotField.all }
  | .slotStore _ _ cursor [] =>
      let index := p.slotIndex cursor
      some { p.setSlot index ((p.slots index).publish cursor) with push := .cursor cursor }
  | .slotStore e generation cursor (f :: todo) =>
      let index := p.slotIndex cursor
      some { p.setSlot index ((p.slots index).store f ((e.slot generation).words f)) with
        push := .slotStore e generation cursor todo }
  | .cursor cursor => some { p with producerCursor := cursor, push := .idle }

/-- One step of `read_entry_for_cursor`. -/
def readStep (p : Page) : Option Page :=
  match p.read with
  | .idle => none
  | .returned _ _ => none
  | .latest cursor =>
      -- `latest_cursor`
      if p.producerCursor = 0 then some { p with read := .returned cursor (.error .empty) }
      else if p.producerCursor < cursor then
        some { p with read := .returned cursor (.error (.notPublished cursor p.producerCursor)) }
      else some { p with read := .oldest cursor p.producerCursor }
  | .oldest cursor latest =>
      -- `oldest_live_cursor` loads the cursor of the producer again
      let oldest := p.producerCursor - min p.producerCursor p.slotCapacity + 1
      if cursor < oldest then
        some { p with read := .returned cursor (.error (.lapped cursor oldest latest)) }
      else some { p with read := .slotFirst cursor }
  | .slotFirst cursor =>
      some { p with
        read := .slotCopy cursor (p.slots (p.slotIndex cursor)).sequence SlotField.all }
  | .slotCopy cursor first (f :: todo) =>
      some { p with
        slotCopy := Function.update p.slotCopy f ((p.slots (p.slotIndex cursor)).words f)
        read := .slotCopy cursor first todo }
  | .slotCopy cursor first [] =>
      let second := (p.slots (p.slotIndex cursor)).sequence
      if first ≠ cursor ∨ second ≠ cursor then
        some { p with
          read := .returned cursor (.error (.slotSequenceMismatch cursor first second)) }
      else some { p with read := .configFirst cursor (.ofWords p.slotCopy) }
  | .configFirst cursor slot =>
      if slot.configGeneration = 0 then
        some { p with read := .returned cursor (.error (.configOverwritten cursor 0 0 0)) }
      else
        some { p with
          read := .configCopy cursor slot (p.configs (configIndex slot.configGeneration)).sequence
            ConfigField.all }
  | .configCopy cursor slot first (f :: todo) =>
      some { p with
        configCopy := Function.update p.configCopy f
          ((p.configs (configIndex slot.configGeneration)).words f)
        read := .configCopy cursor slot first todo }
  | .configCopy cursor slot first [] =>
      let generation := slot.configGeneration
      let second := (p.configs (configIndex generation)).sequence
      if first ≠ generation ∨ second ≠ generation then
        some { p with
          read := .returned cursor (.error (.configOverwritten cursor generation first second)) }
      else
        some { p with
          read := .returned cursor
            (.ok (.fromParts cursor slot generation (.ofWords p.configCopy))) }

end Page

/-- What may happen next to a page. -/
inductive PageLabel where
  /-- the producer calls `push` -/
  | push (e : PendingVideoRingEntry)
  /-- a store of the producer -/
  | store
  /-- the reader calls `read_entry_for_cursor` -/
  | read (cursor : ℕ)
  /-- a load of the reader -/
  | load
  deriving DecidableEq, Repr

/-- Whether the reader is between two calls. -/
def ReadPc.isIdle : ReadPc → Bool
  | .idle => true
  | .returned _ _ => true
  | _ => false

/-- **One step of a page.** -/
def Page.step (p : Page) : PageLabel → Option Page
  | .push e => if p.push = .idle then some { p with push := .config e } else none
  | .store => p.pushStep
  | .read cursor => if p.read.isIdle then some { p with read := .latest cursor } else none
  | .load => p.readStep

end Jackstay.Video
