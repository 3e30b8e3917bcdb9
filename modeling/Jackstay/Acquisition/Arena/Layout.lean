import Jackstay.Acquisition.AdmissionBook
import Jackstay.Library.Outcome

/-!
`acquisition/arena.rs` and `acquisition/arena/mapping.rs`: errors of the arena,
checked size arithmetic, the layout of a resource allocation, and the words of
the persistent control map.

Sizes are `usize` on a 64-bit target: `checkedAdd` and `checkedMul` fail from
`2 ^ 64` on, and the other operators of the source stay below it. The OS page
size is a parameter, since `page_size` asks the system for it.
-/

namespace Jackstay.Acquisition

/-- `ArenaError`. What the operating system says is not kept. -/
inductive ArenaError where
  | notification
  | admission (e : AdmissionError)
  | storage
  | configuration (reason : String)
  | mapping (reason : String)
  | generationsExhausted
  | closed
  | payloadTooLarge
  | recoveryRequired
  deriving DecidableEq, Repr

/-- `MAX_GENERATION`: `u64::MAX >> 1`, so that a state word has room for a
cursor and its published bit. -/
def maxGeneration : ℕ := 2 ^ 63 - 1

/-- `HEADER_LEN`. -/
def headerLen : ℕ := 256

/-- `CLAIM_SLOT_LEN`. -/
def claimSlotLen : ℕ := 32

/-- `size_of::<ResourceRecord>()`, as the source asserts it. -/
def recordLen : ℕ := 256

/-- `checked_add`. -/
def checkedAdd (a b : ℕ) : Except ArenaError ℕ :=
  if a + b < 2 ^ 64 then .ok (a + b) else .error (.configuration "mapping size overflow")

/-- `checked_mul`. -/
def checkedMul (a b : ℕ) : Except ArenaError ℕ :=
  if a * b < 2 ^ 64 then .ok (a * b) else .error (.configuration "mapping size overflow")

/-- `rounded`. -/
def rounded (value alignment : ℕ) : Except ArenaError ℕ := do
  return (← checkedAdd value (alignment - 1)) / alignment * alignment

/-- `page_rounded`, on a system with this page size. -/
def pageRounded (page value : ℕ) : Except ArenaError ℕ :=
  if page = 0 then .error (.configuration "cannot determine OS page size")
  else rounded value page

/-- `ResourceLayout`. -/
structure ResourceLayout where
  resources : ℕ
  history : ℕ
  payloadCapacity : ℕ
  records : ℕ
  payload : ℕ
  len : ℕ
  payloadLen : ℕ
  deriving DecidableEq, Repr, Inhabited

namespace ResourceLayout

/-- The bytes of the payload mapping: none for a native pool. -/
def payloadBytes (page resources payloadCapacity : ℕ) : Except ArenaError ℕ :=
  if payloadCapacity = 0 then .ok 0
  else do pageRounded page (← checkedMul resources payloadCapacity)

/-- `ResourceLayout::new`. -/
def new (page resources history payloadCapacity : ℕ) : Except ArenaError ResourceLayout :=
  if history = 0 ∨ resources ≤ history then
    .error (.configuration "resources must exceed a nonzero history")
  else do
    let records := headerLen
    let len ← pageRounded page (← checkedAdd records (← checkedMul resources recordLen))
    let payloadLen ← payloadBytes page resources payloadCapacity
    let _ ← checkedAdd len payloadLen
    if 2 ^ 63 ≤ payloadCapacity then
      .error (.configuration "payload slice exceeds addressable size")
    else
      return { resources, history, payloadCapacity, records, payload := 0, len, payloadLen }

/-- `ResourceLayout::payload_offset`. -/
def payloadOffset (layout : ResourceLayout) (index : ℕ) : ℕ :=
  layout.payload + index * layout.payloadCapacity

end ResourceLayout

/-- `ControlMap::allocation_len`. -/
def controlAllocationLen (page history : ℕ) : Except ArenaError ℕ :=
  if history = 0 then .error (.configuration "history must be nonzero")
  else do pageRounded page (← checkedAdd headerLen (← checkedMul history 8))

/-- `ClaimMap::allocation_len`: claim and release words and a timeline entry for
every holding slot, and two mapping slots more than holding slots. -/
def claimAllocationLen (page frames : ℕ) : Except ArenaError ℕ := do
  pageRounded page (← checkedAdd
    (← checkedAdd headerLen (← checkedMul frames (claimSlotLen + 8)))
    (← checkedMul (frames + 2) 8))

/-- `FrameDescriptor`. -/
structure FrameDescriptor where
  cursor : ℕ := 0
  sequence : ℕ := 0
  timestampNs : ℕ := 0
  configGeneration : ℕ := 0
  poolId : ℕ := 0
  payloadOffset : ℕ := 0
  payloadLen : ℕ := 0
  modifier : ℕ := 0
  fenceId : ℕ := 0
  fenceValue : ℕ := 0
  damageBaseSequence : ℕ := 0
  producerDropCount : ℕ := 0
  width : ℕ := 0
  height : ℕ := 0
  stride : ℕ := 0
  pixelFormat : ℕ := 0
  slotId : ℕ := 0
  colorSpace : ℕ := 0
  syncKind : ℕ := 0
  payloadKind : ℕ := 0
  damageKind : ℕ := 0
  droppedBeforePublish : ℕ := 0
  flags : ℕ := 0
  reserved : ℕ := 0
  deriving DecidableEq, Repr, Inhabited

/-- `stamp`: a zero timestamp becomes the host time. -/
def FrameDescriptor.stamp (d : FrameDescriptor) (hostTimeNs : ℕ) : FrameDescriptor :=
  if d.timestampNs = 0 then { d with timestampNs := hostTimeNs } else d

/-- The mutable words of `ControlMap`, initialised as `ControlMap::new` does. The
ring is indexed by `(cursor - 1) % history`. -/
structure ControlMap where
  latest : ℕ := 0
  terminal : ℕ := 0
  reconfigurationEpoch : ℕ := 0
  configuration : ℕ := 1
  firstCursor : ℕ := 1
  ring : ℕ → ℕ := fun _ => 0

/-- Where a `CpuReservation` of a slot is: its holder has it, or `commit` has
taken it. -/
inductive Reservation where
  | absent
  | held
  | committing
  deriving DecidableEq, Repr

/-- One resource slot: `ResourceRecord`, the slot's bytes (for an external pool,
the contents of its surface), the producer's `reserved` flag and the reservation
object that owns it. -/
structure Record where
  state : ℕ := 0
  descriptor : FrameDescriptor := {}
  payload : List UInt8 := []
  reserved : Bool := false
  reservation : Reservation := .absent

/-- `ResourceMap`, with the owners of the producer's `Arc` besides the arena:
`releasing` counts reservations past their flag store, `exports` the live
`WriterExport`s. `ready` is what its native pool last answered. -/
structure ResourceMap where
  layout : ResourceLayout
  records : ℕ → Record
  releasing : ℕ := 0
  exports : ℕ := 0
  ready : Bool := false

namespace ResourceMap

/-- `ResourceMap::new`: zeroed records and payload. -/
def new (layout : ResourceLayout) : ResourceMap where
  layout
  records := fun _ => { payload := List.replicate layout.payloadCapacity 0 }

/-- `Arc::strong_count` of the producer's map. -/
def strongCount (map : ResourceMap) : ℕ :=
  1 + map.releasing + map.exports +
    ((List.range map.layout.resources).filter fun idx =>
      (map.records idx).reservation ≠ .absent).length

/-- Change one record. -/
def modify (map : ResourceMap) (index : ℕ) (f : Record → Record) : ResourceMap :=
  { map with records := Function.update map.records index (f (map.records index)) }

end ResourceMap

/-- What the producer shares read-only with every consumer: the control map and
the resource maps by allocation generation. -/
structure Shared where
  page : ℕ
  history : ℕ
  native : Bool
  control : ControlMap
  maps : ℕ → ResourceMap

/-- `ControlMap::ring`. -/
def Shared.ring (sh : Shared) (cursor : ℕ) : ℕ := sh.control.ring ((cursor - 1) % sh.history)

end Jackstay.Acquisition
