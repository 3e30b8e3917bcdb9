import Jackstay.Acquisition.Arena.Layout
import Jackstay.Library.Extents

/-!
`acquisition/arena.rs`, `acquisition/arena/mapping.rs`, `acquisition/arena/cleanup.rs` and
`acquisition/arena/reconfiguration.rs`: where things are in the three kinds of mappings.

A resource allocation has a header and a record for every slot, and the payloads have a
mapping of their own. The control map has a header, five words and the ring. A claim map has
a header, five words, a claim slot with its release words for every credit, a timeline word for
every credit, and the mapping slots. Offsets are `usize` on a 64-bit target and are computed
without a check; an assertion that fails is an error of the computation.

An importer computes the layouts again from the fields of a descriptor, in which counts are
`u32` and lengths `u64`.

* `ResourceLayout.laidOut`, `controlLaidOut`, `claimLaidOut`: the pieces of each mapping.
* `layouts_sound`: every layout that is accepted is in bounds, without overlaps and overflows,
  and is computed again on the other side.
-/

namespace Jackstay.Acquisition

open MachineInt

/-! ### Resources -/

/-- `size_of::<ResourceHeader>()`. -/
def resourceHeaderLen : ℕ := 88

/-- `align_of::<ResourceRecord>()`, as the source asserts it. -/
def recordAlign : ℕ := 128

/-- `ResourceLayout::record_offset`. -/
def ResourceLayout.recordOffset (layout : ResourceLayout) (index : ℕ) : Calc Unit ℕ :=
  if index < layout.resources then do add 64 layout.records (← mul 64 index recordLen)
  else .error (.error ())

/-- `ResourceLayout::payload_offset`, in the arithmetic of the target. -/
def ResourceLayout.payloadOffsetCalc (layout : ResourceLayout) (index : ℕ) : Calc Unit ℕ :=
  if index < layout.resources then do add 64 layout.payload (← mul 64 index layout.payloadCapacity)
  else .error (.error ())

/-- What lies in a resource mapping. -/
inductive ResourcePart where
  | header
  | record (index : ℕ)
  deriving DecidableEq, Repr

namespace ResourcePart

def Valid (layout : ResourceLayout) : ResourcePart → Prop
  | header => True
  | record index => index < layout.resources

def offset (layout : ResourceLayout) : ResourcePart → Calc Unit ℕ
  | header => .ok 0
  | record index => layout.recordOffset index

def size : ResourcePart → ℕ
  | header => resourceHeaderLen
  | record _ => recordLen

def align : ResourcePart → ℕ
  | header => 8
  | record _ => recordAlign

end ResourcePart

/-! ### Control -/

/-- `word`: an assertion on the offset. -/
def wordOffset (len offset : ℕ) : Calc Unit ℕ := do
  let finish ← add 64 offset 8
  if offset % 8 = 0 ∧ finish ≤ len then return offset else .error (.error ())

/-- `size_of::<ControlHeader>()`. -/
def controlHeaderLen : ℕ := 48

/-- The words behind the header of the control map. -/
inductive ControlWord where
  | latest
  | terminal
  | reconfigurationEpoch
  | configuration
  | firstCursor
  deriving DecidableEq, Repr

/-- `LATEST`, `TERMINAL`, `RECONFIGURATION_EPOCH`, `CONFIGURATION` and `FIRST_CURSOR`. -/
def ControlWord.at : ControlWord → ℕ
  | latest => 128
  | terminal => 136
  | reconfigurationEpoch => 144
  | configuration => 152
  | firstCursor => 160

/-- `ControlMap::ring`. -/
def ringOffset (len history cursor : ℕ) : Calc Unit ℕ :=
  if cursor = 0 then .error (.error ())
  else do wordOffset len (← add 64 headerLen (← mul 64 ((cursor - 1) % history) 8))

/-- What lies in the control map. A word of the ring is that of the cursor after it. -/
inductive ControlPart where
  | header
  | word (w : ControlWord)
  | ring (index : ℕ)
  deriving DecidableEq, Repr

namespace ControlPart

def Valid (history : ℕ) : ControlPart → Prop
  | ring index => index < history
  | _ => True

def offset (len history : ℕ) : ControlPart → Calc Unit ℕ
  | header => .ok 0
  | word w => wordOffset len w.at
  | ring index => ringOffset len history (index + 1)

def size : ControlPart → ℕ
  | header => controlHeaderLen
  | _ => 8

end ControlPart

/-! ### Claims -/

/-- `size_of::<ClaimHeader>()`. -/
def claimHeaderLen : ℕ := 64

/-- The words behind the header of a claim map. -/
inductive ClaimWord where
  | active
  | quiescent
  | capacityEpoch
  | waitInterest
  | offeredGeneration
  deriving DecidableEq, Repr

/-- `ACTIVE`, `QUIESCENT`, `CAPACITY_EPOCH`, `WAIT_INTEREST` and `OFFERED_GENERATION`. -/
def ClaimWord.at : ClaimWord → ℕ
  | active => 128
  | quiescent => 136
  | capacityEpoch => 144
  | waitInterest => 152
  | offeredGeneration => 160

/-- The release words of a claim slot. -/
inductive ReleaseField where
  | id
  | value
  | pending
  deriving DecidableEq, Repr

/-- `RELEASE_ID`, `RELEASE_VALUE` and `RELEASE_PENDING`. -/
def ReleaseField.at : ReleaseField → ℕ
  | id => 8
  | value => 16
  | pending => 24

/-- `ClaimMap::slot`. -/
def slotOffset (len frames index : ℕ) : Calc Unit ℕ :=
  if index < frames then do wordOffset len (← add 64 headerLen (← mul 64 index claimSlotLen))
  else .error (.error ())

/-- `ClaimMap::release_word`. -/
def releaseWordOffset (len frames index : ℕ) (field : ReleaseField) : Calc Unit ℕ :=
  if index < frames then do
    wordOffset len (← add 64 (← add 64 headerLen (← mul 64 index claimSlotLen)) field.at)
  else .error (.error ())

/-- `ClaimMap::registered_timeline`. -/
def timelineOffset (len frames index : ℕ) : Calc Unit ℕ :=
  if index < frames then do
    wordOffset len
      (← add 64 (← add 64 headerLen (← mul 64 frames claimSlotLen)) (← mul 64 index 8))
  else .error (.error ())

/-- `ClaimMap::mapping_slot`. -/
def mappingSlotOffset (len frames index : ℕ) : Calc Unit ℕ := do
  if index < (← add 64 frames 2) then
    wordOffset len
      (← add 64 (← add 64 headerLen (← mul 64 frames (claimSlotLen + 8))) (← mul 64 index 8))
  else .error (.error ())

/-- What lies in a claim map. -/
inductive ClaimPart where
  | header
  | word (w : ClaimWord)
  | slot (index : ℕ)
  | release (index : ℕ) (field : ReleaseField)
  | timeline (index : ℕ)
  | mapping (index : ℕ)
  deriving DecidableEq, Repr

namespace ClaimPart

def Valid (frames : ℕ) : ClaimPart → Prop
  | header => True
  | word _ => True
  | slot index => index < frames
  | release index _ => index < frames
  | timeline index => index < frames
  | mapping index => index < frames + 2

def offset (len frames : ℕ) : ClaimPart → Calc Unit ℕ
  | header => .ok 0
  | word w => wordOffset len w.at
  | slot index => slotOffset len frames index
  | release index field => releaseWordOffset len frames index field
  | timeline index => timelineOffset len frames index
  | mapping index => mappingSlotOffset len frames index

def size : ClaimPart → ℕ
  | header => claimHeaderLen
  | _ => 8

end ClaimPart

/-! ### Descriptors -/

/-- The sizes in a `GrantDescriptor`. -/
structure GrantDescriptor where
  payloadCapacity : ℕ
  resourceMapLen : ℕ
  controlMapLen : ℕ
  claimMapLen : ℕ
  resources : ℕ
  history : ℕ
  holding : ℕ
  deriving DecidableEq, Repr

/-- The sizes in a `ConfigurationDescriptor`. -/
structure ConfigurationDescriptor where
  payloadCapacity : ℕ
  resourceMapLen : ℕ
  resources : ℕ
  history : ℕ
  deriving DecidableEq, Repr

/-- `ConsumerGrant::into_parts`: the conversions are `as u32` and `as u64`. -/
def GrantDescriptor.intoParts (page : ℕ) (layout : ResourceLayout) (frames claimLen : ℕ) :
    Except ArenaError GrantDescriptor := do
  let controlLen ← controlAllocationLen page layout.history
  return {
    resources := layout.resources % 2 ^ 32
    history := layout.history % 2 ^ 32
    payloadCapacity := layout.payloadCapacity % 2 ^ 64
    resourceMapLen := layout.len % 2 ^ 64
    controlMapLen := controlLen % 2 ^ 64
    holding := frames % 2 ^ 32
    claimMapLen := claimLen % 2 ^ 64 }

/-- `ConsumerGrant::from_parts`: the layout, the length of the control map that `from_grant`
maps, and that of the claim map. -/
def GrantDescriptor.fromParts (page : ℕ) (d : GrantDescriptor) :
    Except ArenaError (ResourceLayout × ℕ × ℕ) := do
  let layout ← ResourceLayout.new page d.resources d.history d.payloadCapacity
  let claimLen ← claimAllocationLen page d.holding
  let controlLen ← controlAllocationLen page layout.history
  if d.resourceMapLen ≠ layout.len ∨ d.claimMapLen ≠ claimLen ∨ d.controlMapLen ≠ controlLen then
    .error (.mapping "grant mapping sizes disagree with layout")
  else return (layout, controlLen, claimLen)

/-- `ConfigurationGrant::into_parts`. -/
def ConfigurationDescriptor.intoParts (layout : ResourceLayout) : ConfigurationDescriptor where
  resources := layout.resources % 2 ^ 32
  history := layout.history % 2 ^ 32
  payloadCapacity := layout.payloadCapacity % 2 ^ 64
  resourceMapLen := layout.len % 2 ^ 64

/-- `ConfigurationGrant::from_parts`, of a consumer with this history. -/
def ConfigurationDescriptor.fromParts (page history : ℕ) (d : ConfigurationDescriptor) :
    Except ArenaError ResourceLayout := do
  let layout ← ResourceLayout.new page d.resources d.history d.payloadCapacity
  if layout.history ≠ history ∨ layout.len ≠ d.resourceMapLen then
    .error (.mapping "replacement mapping layout disagrees with setup")
  else return layout

/-! ### What is accepted -/

lemma checkedAdd_ok {a b c : ℕ} (h : checkedAdd a b = .ok c) : a + b < 2 ^ 64 ∧ c = a + b := by
  rw [checkedAdd] at h
  split_ifs at h with hlt
  cases h
  exact ⟨hlt, rfl⟩

lemma checkedMul_ok {a b c : ℕ} (h : checkedMul a b = .ok c) : a * b < 2 ^ 64 ∧ c = a * b := by
  rw [checkedMul] at h
  split_ifs at h with hlt
  cases h
  exact ⟨hlt, rfl⟩

/-- A rounded size is not below what was asked for, and it has not wrapped. -/
lemma pageRounded_ok {page value len : ℕ} (h : pageRounded page value = .ok len) :
    value ≤ len ∧ len < 2 ^ 64 := by
  rw [pageRounded] at h
  split_ifs at h with hpage
  obtain ⟨total, htotal, h⟩ := of_bind_ok h
  obtain ⟨hlt, rfl⟩ := checkedAdd_ok htotal
  cases h
  have hdiv := Nat.div_add_mod (value + (page - 1)) page
  have hmod := Nat.mod_lt (value + (page - 1)) (Nat.pos_of_ne_zero hpage)
  rw [Nat.mul_comm] at hdiv
  omega

/-- The sizes of a layout that is accepted. -/
lemma ResourceLayout.new_ok {page resources history payloadCapacity : ℕ} {layout : ResourceLayout}
    (h : ResourceLayout.new page resources history payloadCapacity = .ok layout) :
    layout.resources = resources ∧ layout.history = history ∧
      layout.payloadCapacity = payloadCapacity ∧ layout.records = headerLen ∧ layout.payload = 0 ∧
      0 < history ∧ history < resources ∧ headerLen + resources * recordLen ≤ layout.len ∧
      resources * payloadCapacity ≤ layout.payloadLen ∧ payloadCapacity < 2 ^ 63 ∧
      layout.len + layout.payloadLen < 2 ^ 64 := by
  rw [ResourceLayout.new] at h
  by_cases hbad : history = 0 ∨ resources ≤ history
  · rw [if_pos hbad] at h
    cases h
  rw [if_neg hbad] at h
  obtain ⟨records, hrecords, h⟩ := of_bind_ok h
  obtain ⟨total, htotal, h⟩ := of_bind_ok h
  obtain ⟨len, hlen, h⟩ := of_bind_ok h
  obtain ⟨payloadLen, hpayload, h⟩ := of_bind_ok h
  obtain ⟨sum, hsum, h⟩ := of_bind_ok h
  split_ifs at h with hbig
  cases h
  obtain ⟨-, rfl⟩ := checkedMul_ok hrecords
  obtain ⟨-, rfl⟩ := checkedAdd_ok htotal
  obtain ⟨hle, -⟩ := pageRounded_ok hlen
  obtain ⟨hlt, -⟩ := checkedAdd_ok hsum
  refine ⟨rfl, rfl, rfl, rfl, rfl, by omega, by omega, hle, ?_, by omega, hlt⟩
  rw [ResourceLayout.payloadBytes] at hpayload
  split_ifs at hpayload with hnone
  · rw [hnone, Nat.mul_zero]
    exact Nat.zero_le _
  · obtain ⟨bytes, hbytes, hpayload⟩ := of_bind_ok hpayload
    obtain ⟨-, rfl⟩ := checkedMul_ok hbytes
    exact (pageRounded_ok hpayload).1

/-- The size of a control map that is accepted. -/
lemma controlAllocationLen_ok {page history len : ℕ}
    (h : controlAllocationLen page history = .ok len) :
    0 < history ∧ headerLen + history * 8 ≤ len ∧ len < 2 ^ 64 := by
  rw [controlAllocationLen] at h
  split_ifs at h with hnone
  obtain ⟨ring, hring, h⟩ := of_bind_ok h
  obtain ⟨total, htotal, h⟩ := of_bind_ok h
  obtain ⟨-, rfl⟩ := checkedMul_ok hring
  obtain ⟨-, rfl⟩ := checkedAdd_ok htotal
  obtain ⟨hle, hlt⟩ := pageRounded_ok h
  exact ⟨Nat.pos_of_ne_zero hnone, hle, hlt⟩

/-- The size of a claim map that is accepted. -/
lemma claimAllocationLen_ok {page frames len : ℕ} (h : claimAllocationLen page frames = .ok len) :
    headerLen + frames * (claimSlotLen + 8) + (frames + 2) * 8 ≤ len ∧ len < 2 ^ 64 := by
  rw [claimAllocationLen] at h
  obtain ⟨slots, hslots, h⟩ := of_bind_ok h
  obtain ⟨front, hfront, h⟩ := of_bind_ok h
  obtain ⟨mappings, hmappings, h⟩ := of_bind_ok h
  obtain ⟨total, htotal, h⟩ := of_bind_ok h
  obtain ⟨-, rfl⟩ := checkedMul_ok hslots
  obtain ⟨-, rfl⟩ := checkedAdd_ok hfront
  obtain ⟨-, rfl⟩ := checkedMul_ok hmappings
  obtain ⟨-, rfl⟩ := checkedAdd_ok htotal
  exact pageRounded_ok h

/-! ### Offsets -/

/-- A word is where it was computed to be. -/
lemma wordOffset_ok {len offset : ℕ} (haligned : 8 ∣ offset) (hle : offset + 8 ≤ len)
    (hlen : len < 2 ^ 64) : wordOffset len offset = .ok offset := by
  rw [wordOffset, add_ok (Nat.lt_of_le_of_lt hle hlen)]
  exact if_pos ⟨Nat.mod_eq_zero_of_dvd haligned, hle⟩

section Resource

variable {page resources history payloadCapacity : ℕ} {layout : ResourceLayout}

/-- **The header and the records of a resource mapping.** -/
lemma ResourceLayout.laidOut
    (h : ResourceLayout.new page resources history payloadCapacity = .ok layout) :
    LaidOut (ResourcePart.Valid layout) (ResourcePart.offset layout) ResourcePart.size
      ResourcePart.align layout.len := by
  obtain ⟨hresources, -, -, hrecords, -, hpos, hlt, hlen, -, -, hsum⟩ := new_ok h
  rw [headerLen, recordLen] at hlen
  refine .of_starts (fun | .header => 0 | .record index => headerLen + index * recordLen)
    (fun i hi => ?_) (fun i hi => ?_) (fun i hi => ?_) (fun i j hi hj hne => ?_)
  · cases i with
    | header => rfl
    | record index =>
        have hi : index < layout.resources := hi
        have hmul : index * recordLen < 2 ^ 64 := by
          rw [recordLen]
          omega
        rw [ResourcePart.offset, recordOffset, if_pos hi, mul_ok hmul, hrecords]
        refine add_ok ?_
        rw [headerLen, recordLen]
        omega
  · cases i with
    | header => exact dvd_zero _
    | record index =>
        show (128 : ℕ) ∣ 256 + index * 256
        omega
  · cases i with
    | header =>
        show 0 + 88 ≤ layout.len
        omega
    | record index =>
        have hi : index < layout.resources := hi
        show 256 + index * 256 + 256 ≤ layout.len
        omega
  · cases i with
    | header =>
        cases j with
        | header => exact absurd rfl hne
        | record index =>
            show 0 + 88 ≤ 256 + index * 256 ∨ _
            omega
    | record index =>
        cases j with
        | header =>
            show _ ∨ 0 + 88 ≤ 256 + index * 256
            omega
        | record other =>
            have hindex : index ≠ other := fun h0 => hne (congrArg _ h0)
            show 256 + index * 256 + 256 ≤ 256 + other * 256 ∨
              256 + other * 256 + 256 ≤ 256 + index * 256
            omega

/-- **The payloads of the slots.** -/
lemma ResourceLayout.payloads_laidOut
    (h : ResourceLayout.new page resources history payloadCapacity = .ok layout) :
    LaidOut (· < layout.resources) layout.payloadOffsetCalc (fun _ => layout.payloadCapacity)
      (fun _ => 1) layout.payloadLen := by
  obtain ⟨hresources, -, hcapacity, -, hpayload, -, -, -, hlen, -, hsum⟩ := new_ok h
  rw [← hresources, ← hcapacity] at hlen
  refine .of_starts (fun index => index * layout.payloadCapacity) (fun i hi => ?_)
    (fun i hi => one_dvd _) (fun i hi => ?_) (fun i j hi hj hne => ?_)
  · have hle := stride_le layout.payloadCapacity hi
    rw [payloadOffsetCalc, if_pos hi, mul_ok (by omega), hpayload]
    exact (add_ok (by omega)).trans (by rw [Nat.zero_add])
  · exact Nat.le_trans (stride_le layout.payloadCapacity hi) hlen
  · exact stride_disjoint layout.payloadCapacity hne

end Resource

/-- The words behind a header: five of them, up to the end of what it takes. -/
lemma ControlWord.at_bounds (w : ControlWord) : 128 ≤ w.at ∧ w.at ≤ 160 ∧ 8 ∣ w.at := by
  cases w <;> decide

lemma ControlWord.at_injective {v w : ControlWord} (h : v.at = w.at) : v = w := by
  cases v <;> cases w <;> first | rfl | cases h

/-- **The header, the words and the ring of the control map.** -/
lemma controlLaidOut {page history len : ℕ} (h : controlAllocationLen page history = .ok len) :
    LaidOut (ControlPart.Valid history) (ControlPart.offset len history) ControlPart.size
      (fun _ => 8) len := by
  obtain ⟨hpos, hle, hlen⟩ := controlAllocationLen_ok h
  rw [headerLen] at hle
  refine .of_sections
    (fun | .header => 0 | .word w => w.at | .ring index => 256 + index * 8)
    (fun | .header => 0 | .word _ => 1 | .ring _ => 2)
    (fun | 0 => 0 | 1 => 128 | 2 => 256 | _ => 256 + history * 8)
    (fun k => ?_) (fun i hi => ?_) (fun i hi => ?_) (fun i hi => ?_) (fun i hi => ?_)
    (fun i j hi hj hne hpart => ?_)
  · match k with
    | 0 => exact Nat.zero_le 128
    | 1 =>
        show 128 ≤ 256
        omega
    | 2 => exact Nat.le_add_right _ _
    | k + 3 => exact le_rfl
  · cases i with
    | header => rfl
    | word w =>
        obtain ⟨-, hupper, haligned⟩ := w.at_bounds
        exact wordOffset_ok haligned (by omega) hlen
    | ring index =>
        have hi : index < history := hi
        rw [ControlPart.offset, ringOffset, if_neg (Nat.succ_ne_zero index), Nat.add_sub_cancel,
          Nat.mod_eq_of_lt hi, mul_ok (by omega)]
        show (add 64 headerLen (index * 8) >>= wordOffset len) = _
        rw [headerLen, add_ok (by omega)]
        exact wordOffset_ok (by omega) (by omega) hlen
  · cases i with
    | header => exact dvd_zero _
    | word w => exact w.at_bounds.2.2
    | ring index =>
        show (8 : ℕ) ∣ 256 + index * 8
        omega
  · cases i with
    | header =>
        show 0 ≤ 0 ∧ 0 + 48 ≤ 128
        omega
    | word w =>
        obtain ⟨hlower, hupper, -⟩ := w.at_bounds
        show 128 ≤ w.at ∧ w.at + 8 ≤ 256
        omega
    | ring index =>
        have hi : index < history := hi
        refine ⟨Nat.le_add_right _ _, ?_⟩
        show 256 + index * 8 + 8 ≤ 256 + history * 8
        omega
  · cases i with
    | header =>
        show 128 ≤ len
        omega
    | word w =>
        show 256 ≤ len
        omega
    | ring index => exact hle
  · cases i with
    | header =>
        cases j with
        | header => exact absurd rfl hne
        | word w => cases hpart
        | ring index => cases hpart
    | word v =>
        cases j with
        | header => cases hpart
        | word w =>
            have hat : v.at ≠ w.at := fun h0 => hne (congrArg _ (ControlWord.at_injective h0))
            have hv := v.at_bounds
            have hw := w.at_bounds
            show v.at + 8 ≤ w.at ∨ w.at + 8 ≤ v.at
            omega
        | ring index => cases hpart
    | ring index =>
        cases j with
        | header => cases hpart
        | word w => cases hpart
        | ring other =>
            have hindex : index ≠ other := fun h0 => hne (congrArg _ h0)
            show 256 + index * 8 + 8 ≤ 256 + other * 8 ∨ 256 + other * 8 + 8 ≤ 256 + index * 8
            omega

lemma ClaimWord.at_bounds (w : ClaimWord) : 128 ≤ w.at ∧ w.at ≤ 160 ∧ 8 ∣ w.at := by
  cases w <;> decide

lemma ClaimWord.at_injective {v w : ClaimWord} (h : v.at = w.at) : v = w := by
  cases v <;> cases w <;> first | rfl | cases h

lemma ReleaseField.at_bounds (f : ReleaseField) : 8 ≤ f.at ∧ f.at ≤ 24 ∧ 8 ∣ f.at := by
  cases f <;> decide

lemma ReleaseField.at_injective {f g : ReleaseField} (h : f.at = g.at) : f = g := by
  cases f <;> cases g <;> first | rfl | cases h

namespace ClaimPart

/-- Where a piece of a claim map starts. -/
def start (frames : ℕ) : ClaimPart → ℕ
  | header => 0
  | word w => w.at
  | slot index => 256 + index * 32
  | release index field => 256 + index * 32 + field.at
  | timeline index => 256 + frames * 32 + index * 8
  | mapping index => 256 + frames * 40 + index * 8

/-- The sections of a claim map: the header, its words, the credits, the timelines and the
mapping slots. -/
def part : ClaimPart → ℕ
  | header => 0
  | word _ => 1
  | slot _ => 2
  | release _ _ => 2
  | timeline _ => 3
  | mapping _ => 4

/-- Where a section of a claim map starts. -/
def bound (frames : ℕ) : ℕ → ℕ
  | 0 => 0
  | 1 => 128
  | 2 => 256
  | 3 => 256 + frames * 32
  | 4 => 256 + frames * 40
  | _ => 256 + frames * 40 + (frames + 2) * 8

variable {len frames : ℕ}

lemma bound_le_succ (frames k : ℕ) : bound frames k ≤ bound frames (k + 1) := by
  match k with
  | 0 => exact Nat.zero_le 128
  | 1 =>
      show 128 ≤ 256
      omega
  | 2 => exact Nat.le_add_right _ _
  | 3 =>
      show 256 + frames * 32 ≤ 256 + frames * 40
      omega
  | 4 => exact Nat.le_add_right _ _
  | k + 5 => exact le_rfl

lemma offset_eq (hle : 256 + frames * 40 + (frames + 2) * 8 ≤ len) (hlen : len < 2 ^ 64)
    (i : ClaimPart) (hi : i.Valid frames) : i.offset len frames = .ok (i.start frames) := by
  cases i with
  | header => rfl
  | word w =>
      obtain ⟨-, hupper, haligned⟩ := w.at_bounds
      exact wordOffset_ok haligned (by omega) hlen
  | slot index =>
      have hi : index < frames := hi
      rw [offset, slotOffset, if_pos hi, claimSlotLen, mul_ok (by omega)]
      show (add 64 headerLen (index * 32) >>= wordOffset len) = _
      rw [headerLen, add_ok (by omega)]
      exact wordOffset_ok (by omega) (by omega) hlen
  | release index field =>
      have hi : index < frames := hi
      obtain ⟨-, hupper, haligned⟩ := field.at_bounds
      rw [offset, releaseWordOffset, if_pos hi, claimSlotLen, mul_ok (by omega)]
      show (add 64 headerLen (index * 32) >>= fun x => add 64 x field.at >>= wordOffset len) = _
      rw [headerLen, add_ok (by omega)]
      show (add 64 (256 + index * 32) field.at >>= wordOffset len) = _
      rw [add_ok (by omega)]
      exact wordOffset_ok (by omega) (by omega) hlen
  | timeline index =>
      have hi : index < frames := hi
      rw [offset, timelineOffset, if_pos hi, claimSlotLen, mul_ok (by omega), mul_ok (by omega)]
      show (add 64 headerLen (frames * 32) >>= fun x => add 64 x (index * 8) >>=
        wordOffset len) = _
      rw [headerLen, add_ok (by omega)]
      show (add 64 (256 + frames * 32) (index * 8) >>= wordOffset len) = _
      rw [add_ok (by omega)]
      exact wordOffset_ok (by omega) (by omega) hlen
  | mapping index =>
      have hi : index < frames + 2 := hi
      rw [offset, mappingSlotOffset, add_ok (by omega)]
      show (if index < frames + 2 then _ else _) = _
      rw [if_pos hi, claimSlotLen, mul_ok (by omega), mul_ok (by omega)]
      show (add 64 headerLen (frames * 40) >>= fun x => add 64 x (index * 8) >>=
        wordOffset len) = _
      rw [headerLen, add_ok (by omega)]
      show (add 64 (256 + frames * 40) (index * 8) >>= wordOffset len) = _
      rw [add_ok (by omega)]
      exact wordOffset_ok (by omega) (by omega) hlen

lemma part_le (i : ClaimPart) : i.part ≤ 4 := by
  cases i <;> simp [part]

lemma start_dvd (i : ClaimPart) : 8 ∣ i.start frames := by
  cases i with
  | header => exact dvd_zero _
  | word w => exact w.at_bounds.2.2
  | slot index =>
      show (8 : ℕ) ∣ 256 + index * 32
      omega
  | release index field =>
      obtain ⟨-, -, haligned⟩ := field.at_bounds
      show (8 : ℕ) ∣ 256 + index * 32 + field.at
      omega
  | timeline index =>
      show (8 : ℕ) ∣ 256 + frames * 32 + index * 8
      omega
  | mapping index =>
      show (8 : ℕ) ∣ 256 + frames * 40 + index * 8
      omega

lemma within (i : ClaimPart) (hi : i.Valid frames) :
    bound frames i.part ≤ i.start frames ∧ i.start frames + i.size ≤ bound frames (i.part + 1) := by
  cases i with
  | header =>
      show 0 ≤ 0 ∧ 0 + 64 ≤ 128
      omega
  | word w =>
      obtain ⟨hlower, hupper, -⟩ := w.at_bounds
      show 128 ≤ w.at ∧ w.at + 8 ≤ 256
      omega
  | slot index =>
      have hi : index < frames := hi
      show 256 ≤ 256 + index * 32 ∧ 256 + index * 32 + 8 ≤ 256 + frames * 32
      omega
  | release index field =>
      have hi : index < frames := hi
      obtain ⟨-, hupper, -⟩ := field.at_bounds
      show 256 ≤ 256 + index * 32 + field.at ∧ 256 + index * 32 + field.at + 8 ≤ 256 + frames * 32
      omega
  | timeline index =>
      have hi : index < frames := hi
      show 256 + frames * 32 ≤ 256 + frames * 32 + index * 8 ∧
        256 + frames * 32 + index * 8 + 8 ≤ 256 + frames * 40
      omega
  | mapping index =>
      have hi : index < frames + 2 := hi
      show 256 + frames * 40 ≤ 256 + frames * 40 + index * 8 ∧
        256 + frames * 40 + index * 8 + 8 ≤ 256 + frames * 40 + (frames + 2) * 8
      omega

/-- Two pieces of one section. -/
lemma apart {i j : ClaimPart} (hne : i ≠ j) (hpart : i.part = j.part) :
    i.start frames + i.size ≤ j.start frames ∨ j.start frames + j.size ≤ i.start frames := by
  cases i with
  | header =>
      cases j with
      | header => exact absurd rfl hne
      | _ => cases hpart
  | word v =>
      cases j with
      | word w =>
          have hat : v.at ≠ w.at := fun h0 => hne (congrArg _ (ClaimWord.at_injective h0))
          have hv := v.at_bounds
          have hw := w.at_bounds
          show v.at + 8 ≤ w.at ∨ w.at + 8 ≤ v.at
          omega
      | _ => cases hpart
  | slot index =>
      cases j with
      | slot other =>
          have hindex : index ≠ other := fun h0 => hne (congrArg _ h0)
          show 256 + index * 32 + 8 ≤ 256 + other * 32 ∨ 256 + other * 32 + 8 ≤ 256 + index * 32
          omega
      | release other field =>
          have hfield := field.at_bounds
          show 256 + index * 32 + 8 ≤ 256 + other * 32 + field.at ∨
            256 + other * 32 + field.at + 8 ≤ 256 + index * 32
          omega
      | _ => cases hpart
  | release index field =>
      have hfield := field.at_bounds
      cases j with
      | slot other =>
          show 256 + index * 32 + field.at + 8 ≤ 256 + other * 32 ∨
            256 + other * 32 + 8 ≤ 256 + index * 32 + field.at
          omega
      | release other field' =>
          have hfield' := field'.at_bounds
          have hdiffers : index ≠ other ∨ field.at ≠ field'.at := by
            by_contra hsame
            rw [not_or, not_not, not_not] at hsame
            exact hne (by rw [hsame.1, ReleaseField.at_injective hsame.2])
          show 256 + index * 32 + field.at + 8 ≤ 256 + other * 32 + field'.at ∨
            256 + other * 32 + field'.at + 8 ≤ 256 + index * 32 + field.at
          omega
      | _ => cases hpart
  | timeline index =>
      cases j with
      | timeline other =>
          have hindex : index ≠ other := fun h0 => hne (congrArg _ h0)
          show 256 + frames * 32 + index * 8 + 8 ≤ 256 + frames * 32 + other * 8 ∨
            256 + frames * 32 + other * 8 + 8 ≤ 256 + frames * 32 + index * 8
          omega
      | _ => cases hpart
  | mapping index =>
      cases j with
      | mapping other =>
          have hindex : index ≠ other := fun h0 => hne (congrArg _ h0)
          show 256 + frames * 40 + index * 8 + 8 ≤ 256 + frames * 40 + other * 8 ∨
            256 + frames * 40 + other * 8 + 8 ≤ 256 + frames * 40 + index * 8
          omega
      | _ => cases hpart

end ClaimPart

/-- **The header, the words, the credits and the mapping slots of a claim map.** -/
lemma claimLaidOut {page frames len : ℕ} (h : claimAllocationLen page frames = .ok len) :
    LaidOut (ClaimPart.Valid frames) (ClaimPart.offset len frames) ClaimPart.size (fun _ => 8)
      len := by
  obtain ⟨hle, hlen⟩ := claimAllocationLen_ok h
  rw [headerLen, claimSlotLen] at hle
  refine .of_sections (ClaimPart.start frames) ClaimPart.part (ClaimPart.bound frames)
    (ClaimPart.bound_le_succ frames) (ClaimPart.offset_eq hle hlen) (fun i _ => i.start_dvd)
    ClaimPart.within (fun i hi => ?_) (fun i j _ _ => ClaimPart.apart)
  have hend : ClaimPart.bound frames (i.part + 1) ≤ ClaimPart.bound frames 5 :=
    monotone_nat_of_le_succ (ClaimPart.bound_le_succ frames) (Nat.succ_le_succ i.part_le)
  exact Nat.le_trans hend hle

/-! ### Both sides -/

section Import

variable {page resources history payloadCapacity frames claimLen : ℕ} {layout : ResourceLayout}

/-- **An importer of a grant computes the lengths of the exporter.** -/
lemma GrantDescriptor.fromParts_intoParts
    (h : ResourceLayout.new page resources history payloadCapacity = .ok layout)
    (hclaim : claimAllocationLen page frames = .ok claimLen) (hresources : resources < 2 ^ 32)
    (hframes : frames < 2 ^ 32) {d : GrantDescriptor}
    (hd : GrantDescriptor.intoParts page layout frames claimLen = .ok d) :
    ∃ controlLen, controlAllocationLen page history = .ok controlLen ∧
      d.fromParts page = .ok (layout, controlLen, claimLen) := by
  obtain ⟨hres, hhist, hcap, -, -, -, hlt, -, -, hcapacity, hsum⟩ := ResourceLayout.new_ok h
  obtain ⟨controlLen, hcontrol, hd⟩ := of_bind_ok hd
  cases hd
  rw [hhist] at hcontrol
  refine ⟨controlLen, hcontrol, ?_⟩
  have hclaimLen := (claimAllocationLen_ok hclaim).2
  have hcontrolLen := (controlAllocationLen_ok hcontrol).2.2
  have hlen : layout.len < 2 ^ 64 := by omega
  rw [fromParts]
  dsimp only
  rw [hres, hhist, hcap, Nat.mod_eq_of_lt hresources, Nat.mod_eq_of_lt (Nat.lt_trans hlt hresources),
    Nat.mod_eq_of_lt (Nat.lt_trans hcapacity (by decide)), Nat.mod_eq_of_lt hframes,
    Nat.mod_eq_of_lt hlen, Nat.mod_eq_of_lt hclaimLen, Nat.mod_eq_of_lt hcontrolLen, h, hclaim]
  show (controlAllocationLen page layout.history >>= _) = _
  rw [hhist, hcontrol]
  exact if_neg (by simp)

/-- **An importer of a replacement computes the layout of the exporter.** -/
lemma ConfigurationDescriptor.fromParts_intoParts
    (h : ResourceLayout.new page resources history payloadCapacity = .ok layout)
    (hresources : resources < 2 ^ 32) :
    (ConfigurationDescriptor.intoParts layout).fromParts page history = .ok layout := by
  obtain ⟨hres, hhist, hcap, -, -, -, hlt, -, -, hcapacity, hsum⟩ := ResourceLayout.new_ok h
  have hlen : layout.len < 2 ^ 64 := by omega
  rw [fromParts, intoParts]
  dsimp only
  rw [hres, hhist, hcap, Nat.mod_eq_of_lt hresources, Nat.mod_eq_of_lt (Nat.lt_trans hlt hresources),
    Nat.mod_eq_of_lt (Nat.lt_trans hcapacity (by decide)), Nat.mod_eq_of_lt hlen, h]
  exact if_neg (by simp [hhist])

/-- **The layouts of shared memory are sound.** The pieces of every mapping that is accepted are
aligned, inside of it and apart, and so are the payloads; no offset and no total overflows.
The counts in a configuration are `u32`: an importer computes the same layouts again from the
fields of a descriptor. -/
theorem layouts_sound {ringHistory controlLen : ℕ}
    (hlayout : ResourceLayout.new page resources history payloadCapacity = .ok layout)
    (hcontrol : controlAllocationLen page ringHistory = .ok controlLen)
    (hclaim : claimAllocationLen page frames = .ok claimLen) :
    LaidOut (ResourcePart.Valid layout) (ResourcePart.offset layout) ResourcePart.size
      ResourcePart.align layout.len ∧
    LaidOut (· < layout.resources) layout.payloadOffsetCalc (fun _ => layout.payloadCapacity)
      (fun _ => 1) layout.payloadLen ∧
    layout.len + layout.payloadLen < 2 ^ 64 ∧
    LaidOut (ControlPart.Valid ringHistory) (ControlPart.offset controlLen ringHistory)
      ControlPart.size (fun _ => 8) controlLen ∧
    LaidOut (ClaimPart.Valid frames) (ClaimPart.offset claimLen frames) ClaimPart.size
      (fun _ => 8) claimLen ∧
    (resources < 2 ^ 32 → frames < 2 ^ 32 →
      (∀ d, GrantDescriptor.intoParts page layout frames claimLen = .ok d →
        ∃ len, controlAllocationLen page history = .ok len ∧
          d.fromParts page = .ok (layout, len, claimLen)) ∧
      (ConfigurationDescriptor.intoParts layout).fromParts page history = .ok layout) := by
  refine ⟨ResourceLayout.laidOut hlayout, ResourceLayout.payloads_laidOut hlayout,
    (ResourceLayout.new_ok hlayout).2.2.2.2.2.2.2.2.2.2, controlLaidOut hcontrol,
    claimLaidOut hclaim, fun hresources hframes => ⟨fun d hd => ?_, ?_⟩⟩
  · exact GrantDescriptor.fromParts_intoParts hlayout hclaim hresources hframes hd
  · exact ConfigurationDescriptor.fromParts_intoParts hlayout hresources

theorem layouts_sound_small :
    LaidOut (ClaimPart.Valid 2) (ClaimPart.offset 4096 2) ClaimPart.size (fun _ => 8) 4096 := by
  have hlayout : ResourceLayout.new 4096 3 1 64 = .ok ⟨3, 1, 64, 256, 0, 4096, 4096⟩ := by decide
  have hcontrol : controlAllocationLen 4096 1 = .ok 4096 := by decide
  have hclaim : claimAllocationLen 4096 2 = .ok 4096 := by decide
  exact (layouts_sound hlayout hcontrol hclaim).2.2.2.2.1

end Import

end Jackstay.Acquisition
