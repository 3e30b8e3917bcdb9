import Mathlib.Tactic.Ring
import Jackstay.Library.MachineInt
import Jackstay.Audio.Playback

/-!
`audio.rs`: the geometry of a ring in its shared memory, in 64-bit arithmetic.

`Shared::new` turns settings into a number of blocks and the bytes of a block,
`Ring::create` lays them out behind a header, and `Ring::map` checks the header on the other
side. The frames of a block are a quotient of its bytes by the frame size of the format, which
a reconfiguration changes. Every operator without a check is one of `MachineInt`, so that an
overflow is an outcome of the model.

The fields of settings, formats and descriptors are numbers here; `Typed` says that they are
in the range of their types. The operating system may refuse memory or a mapping (`Os`).

* `Shared.new`, `Mapping.map`, `Mapping.block`, `latencyBlocks`: the computations.
* `Agrees`: what both sides rely on.
* `geometry_agrees`: it holds for every track, whatever formats its writer has switched to.
* `shallow_fast`: a format with shorter blocks makes a ring less deep than the settings ask for.
-/

namespace Jackstay.Audio

open MachineInt Transition

/-! ### Types -/

/-- `u32` and `u16`. -/
structure Format.Typed (f : Format) : Prop where
  rate : f.rate < 2 ^ 32
  channels : f.channels < 2 ^ 16

/-- A `Duration` in nanoseconds: 64 bits of seconds. -/
def IsDuration (nanos : ℕ) : Prop := nanos < 2 ^ 64 * 1000000000

structure Settings.Typed (s : Settings) : Prop where
  format : s.format.Typed
  depth : IsDuration s.depth

structure Descriptor.Typed (d : Descriptor) : Prop where
  format : d.format.Typed
  blockFrames : d.blockFrames < 2 ^ 32

/-- The formats that a track is switched to and the descriptors it is read with. -/
def Track.Typed (_ : Track) : TrackLabel → Prop
  | .writer (.reconfigure format) => format.Typed
  | .attach d latency => d.Typed ∧ IsDuration latency
  | _ => True

/-! ### The shared memory -/

/-- `Error`. -/
inductive Error where
  | invalid (message : String)
  | storage
  deriving DecidableEq, Repr

/-- What the operating system grants: a new object of a length, a view of a length. -/
structure Os where
  allocates : ℕ → Bool
  maps : ℕ → Bool

/-- `MAGIC`: the bytes of `JSAUDIO1`, the first one lowest. -/
def magic : ℕ := 0x314F49445541534A

/-- `VERSION`. -/
def version : ℕ := 1

/-- `HEADER_LEN`. -/
def headerLen : ℕ := 256

/-- `BLOCK_ALIGN`. -/
def blockAlign : ℕ := 64

/-- `size_of::<BlockHeader>()`. -/
def blockHeaderLen : ℕ := 64

/-- `RingHeader`. -/
structure RingHeader where
  magic : ℕ
  version : ℕ
  blocks : ℕ
  blockLen : ℕ
  payloadLen : ℕ
  mapLen : ℕ
  deriving DecidableEq, Repr

/-- `SharedMemorySegment`: its length, and line 0. -/
structure Segment where
  len : ℕ
  header : RingHeader
  deriving DecidableEq, Repr

/-- `SharedMemorySegment::map_read_only` and `map_read_write`. -/
def Segment.view (os : Os) (s : Segment) (len : ℕ) : Calc Error Segment :=
  if len = 0 ∨ s.len < len ∨ os.maps len = false then .error (.error .storage)
  else .ok { s with len }

/-- `Ring`: a mapped segment and its geometry. -/
structure Mapping where
  segment : Segment
  blocks : ℕ
  blockLen : ℕ
  payloadLen : ℕ
  deriving DecidableEq, Repr

/-- `Format::frame_bytes`. -/
def Format.frameBytes64 (f : Format) : Calc Error ℕ := mul 64 f.channels f.sample.bytes

namespace Mapping

/-- The ring that is laid out in a mapping. -/
def ring (m : Mapping) : Ring := { blocks := m.blocks, payloadLen := m.payloadLen }

/-- The length of so many blocks and the header. -/
def mapLen (blocks blockLen : ℕ) : Option ℕ := do
  let blocks ← narrow 64 blocks
  checkedAdd 64 (← checkedMul 64 blocks blockLen) headerLen

/-- `Ring::create`. -/
def create (os : Os) (blocks payloadLen : ℕ) : Calc Error Mapping := do
  let blockLen ← nextMultipleOf 64 (← add 64 blockHeaderLen payloadLen) blockAlign
  let len ← orError (mapLen blocks blockLen) (.invalid "ring too large")
  if len = 0 ∨ os.allocates len = false then .error (.error .storage)
  else
    let header := ⟨magic, version, blocks, blockLen, payloadLen, len⟩
    .ok ⟨⟨len, header⟩, blocks, blockLen, payloadLen⟩

/-- `Ring::map`. -/
def map (os : Os) (segment : Segment) : Calc Error Mapping := do
  let probe ← segment.view os headerLen
  let header := probe.header
  let blockLen ← orError (narrow 64 header.blockLen) (.invalid "ring geometry")
  let payloadLen ← orError (narrow 64 header.payloadLen) (.invalid "ring geometry")
  let len ← orError (narrow 64 header.mapLen) (.invalid "ring geometry")
  if header.magic ≠ magic ∨ header.version ≠ version ∨ header.blocks < 2 ∨
      blockLen % blockAlign ≠ 0 ∨ blockLen < min (blockHeaderLen + payloadLen) (2 ^ 64 - 1) ∨
      mapLen header.blocks blockLen ≠ some len then
    .error (.error (.invalid "ring geometry"))
  else do
    let segment ← segment.view os len
    if segment.header ≠ header then .error (.error (.invalid "ring geometry"))
    else .ok ⟨segment, header.blocks, blockLen, payloadLen⟩

/-- `Ring::block`: the offset of the block of a cursor. -/
def block (m : Mapping) (cursor : ℕ) : Calc Error ℕ := do
  let back ← sub cursor 1
  add 64 headerLen (← mul 64 (back % m.blocks) m.blockLen)

/-- `Shared::descriptor`; its fields are cut to 32 bits. -/
def descriptor (m : Mapping) (format : Format) : Calc Error Descriptor := do
  let bytes ← format.frameBytes64
  .ok ⟨format, m.payloadLen / bytes % 2 ^ 32, m.blocks % 2 ^ 32⟩

end Mapping

/-- `Shared::new`. -/
def Shared.new (os : Os) (s : Settings) : Calc Error Mapping := do
  if s.format.valid = false ∨ s.blockFrames = 0 then .error (.error (.invalid "format"))
  else if s.depth < minDepth then .error (.error (.invalid "ring depth below 250 ms"))
  else do
    let samples ← mul 128 s.depth s.format.rate
    let period ← mul 128 s.blockFrames.toNat 1000000000
    let blocks ← orError (narrow 32 (divCeil samples period)) (.invalid "ring too large")
    let bytes ← s.format.frameBytes64
    let payloadLen ← orError (checkedMul 64 s.blockFrames.toNat bytes) (.invalid "block too large")
    Mapping.create os (max blocks 2) payloadLen

/-- The latency of `PlaybackReader::new`, in blocks. -/
def latencyBlocks (d : Descriptor) (latency : ℕ) : Calc Error ℕ := do
  let samples ← mul 128 latency d.format.rate
  let period ← mul 128 d.blockFrames 1000000000
  let last ← sub d.blocks 1
  .ok (min (divCeil samples period) last % 2 ^ 64)

/-- The check of a copied block in `PlaybackReader::read`. -/
def acceptsBlock (payloadLen : ℕ) (format : Format) (frames : ℕ) : Calc Error Bool := do
  if frames = 0 then .ok false
  else do
    let len ← mul 64 frames (← format.frameBytes64)
    .ok (decide (len ≤ payloadLen))

/-! ### A ring is laid out -/

/-- **The layout of a ring**: whole blocks, each with room for its header and samples, behind
the header of the ring. -/
structure Mapping.Laid (m : Mapping) : Prop where
  blocks : 2 ≤ m.blocks ∧ m.blocks < 2 ^ 32
  payload : m.payloadLen < 2 ^ 50
  aligned : blockAlign ∣ m.blockLen
  room : blockHeaderLen + m.payloadLen ≤ m.blockLen
  tight : m.blockLen < blockHeaderLen + m.payloadLen + blockAlign
  len : m.segment.len = m.blocks * m.blockLen + headerLen
  fits : m.segment.len < 2 ^ 64
  header : m.segment.header =
    ⟨magic, version, m.blocks, m.blockLen, m.payloadLen, m.segment.len⟩

variable {os : Os} {s : Settings} {m : Mapping} {blocks payloadLen : ℕ}

lemma Mapping.mapLen_eq_some {blocks blockLen len : ℕ} :
    mapLen blocks blockLen = some len ↔
      blocks < 2 ^ 64 ∧ blocks * blockLen < 2 ^ 64 ∧ blocks * blockLen + headerLen < 2 ^ 64 ∧
        len = blocks * blockLen + headerLen := by
  constructor
  · intro h
    obtain ⟨n, hn, h⟩ := Option.bind_eq_some_iff.mp h
    obtain ⟨p, hp, h⟩ := Option.bind_eq_some_iff.mp h
    obtain ⟨hblocks, rfl⟩ := narrow_eq_some hn
    obtain ⟨hmul, rfl⟩ := narrow_eq_some hp
    obtain ⟨hadd, rfl⟩ := narrow_eq_some h
    exact ⟨hblocks, hmul, hadd, rfl⟩
  · rintro ⟨hblocks, hmul, hadd, rfl⟩
    rw [mapLen, narrow_ok hblocks]
    show ((checkedMul 64 blocks blockLen).bind fun n => checkedAdd 64 n headerLen) = _
    rw [checkedMul, narrow_ok hmul, Option.bind_some]
    exact narrow_ok hadd

/-- The computation of `Ring::create` behind the length of a block. -/
lemma Mapping.create_eq (os : Os) (blocks : ℕ) (hp : payloadLen < 2 ^ 50) : ∃ blockLen,
    blockHeaderLen + payloadLen ≤ blockLen ∧ blockLen < blockHeaderLen + payloadLen + blockAlign ∧
      blockAlign ∣ blockLen ∧ create os blocks payloadLen =
        (orError (mapLen blocks blockLen) (.invalid "ring too large") >>= fun len =>
          if len = 0 ∨ os.allocates len = false then .error (.error .storage)
          else .ok ⟨⟨len, ⟨magic, version, blocks, blockLen, payloadLen, len⟩⟩, blocks, blockLen,
            payloadLen⟩) := by
  have hsize : blockHeaderLen + payloadLen + blockAlign ≤ 2 ^ 64 := by
    simp only [blockHeaderLen, blockAlign]
    omega
  have halign : 0 < blockAlign := by decide
  obtain ⟨blockLen, hlen, hroom, htight, haligned⟩ := nextMultipleOf_ok (ε := Error) halign hsize
  refine ⟨blockLen, hroom, htight, haligned, ?_⟩
  rw [create, add_ok (by omega)]
  show (nextMultipleOf 64 (blockHeaderLen + payloadLen) blockAlign >>= _) = _
  rw [hlen]
  rfl

/-- **A ring that has been created is laid out.** -/
lemma Mapping.laid_of_create (hm : create os blocks payloadLen = .ok m) (h2 : 2 ≤ blocks)
    (hn : blocks < 2 ^ 32) (hp : payloadLen < 2 ^ 50) :
    m.Laid ∧ m.blocks = blocks ∧ m.payloadLen = payloadLen := by
  obtain ⟨blockLen, hroom, htight, haligned, hcreate⟩ := create_eq os blocks hp
  rw [hcreate] at hm
  obtain ⟨len, hmap, hm⟩ := of_bind_ok hm
  obtain ⟨-, -, hfits, hlen⟩ := mapLen_eq_some.mp (orError_eq_ok hmap)
  split_ifs at hm
  cases hm
  exact ⟨⟨⟨h2, hn⟩, hp, haligned, hroom, htight, hlen, hlen ▸ hfits, rfl⟩, rfl, rfl⟩

lemma Mapping.create_ne_overflow (hp : payloadLen < 2 ^ 50) :
    create os blocks payloadLen ≠ .error .overflow := by
  obtain ⟨blockLen, -, -, -, hcreate⟩ := create_eq os blocks hp
  rw [hcreate]
  refine bind_ne_overflow (orError_ne_overflow _ _) fun len _ => ?_
  split_ifs
  · exact nofun
  · exact nofun

/-- The bytes and the number of blocks determine the layout. -/
lemma Mapping.Laid.unique {m' : Mapping} (h : m.Laid) (h' : m'.Laid)
    (hblocks : m'.blocks = m.blocks) (hpayload : m'.payloadLen = m.payloadLen) : m' = m := by
  have hlen : m'.blockLen = m.blockLen := by
    obtain ⟨k, hk⟩ := h.aligned
    obtain ⟨k', hk'⟩ := h'.aligned
    have hroom := h.room
    have hroom' := h'.room
    have htight := h.tight
    have htight' := h'.tight
    simp only [blockAlign] at hk hk' htight htight'
    omega
  have hsegment : m'.segment.len = m.segment.len := by
    rw [h.len, h'.len, hblocks, hlen]
  have hheader : m'.segment.header = m.segment.header := by
    rw [h.header, h'.header, hblocks, hlen, hpayload, hsegment]
  obtain ⟨⟨len, header⟩, blocks, blockLen, payloadLen⟩ := m
  obtain ⟨⟨len', header'⟩, blocks', blockLen', payloadLen'⟩ := m'
  dsimp only at hblocks hpayload hlen hsegment hheader
  rw [hblocks, hpayload, hlen, hsegment, hheader]

/-! ### The settings of a track -/

lemma Sample.bytes_le (x : Sample) : x.bytes ≤ 4 := by
  cases x <;> decide

lemma Format.Typed.frameBytes_lt {f : Format} (h : f.Typed) : f.frameBytes < 2 ^ 18 := by
  have hchannels := h.channels
  calc
    f.channels * f.sample.bytes ≤ f.channels * 4 := Nat.mul_le_mul_left _ f.sample.bytes_le
    _ < 2 ^ 18 := by omega

/-- The size of a frame does not overflow. -/
lemma Format.Typed.frameBytes64 {f : Format} (h : f.Typed) :
    f.frameBytes64 = .ok f.frameBytes := by
  have hlt := h.frameBytes_lt
  exact mul_ok (by rw [← Format.frameBytes]; omega)

/-- The product of a duration and a rate does not overflow. -/
lemma IsDuration.mul_ok {nanos rate : ℕ} (h : IsDuration nanos) (hrate : rate < 2 ^ 32) :
    (mul 128 nanos rate : Calc Error ℕ) = .ok (nanos * rate) := by
  refine MachineInt.mul_ok ?_
  calc
    nanos * rate ≤ 2 ^ 64 * 1000000000 * 2 ^ 32 := Nat.mul_le_mul h.le hrate.le
    _ < 2 ^ 128 := by norm_num

lemma period_ok {blockFrames : ℕ} (h : blockFrames < 2 ^ 32) :
    (mul 128 blockFrames 1000000000 : Calc Error ℕ) = .ok (blockFrames * 1000000000) :=
  mul_ok (by omega)

/-- The computations of `Shared::new` up to the layout. -/
lemma Shared.new_eq (os : Os) (hs : s.Typed)
    (hvalid : ¬ (s.format.valid = false ∨ s.blockFrames = 0)) (hdepth : ¬ s.depth < minDepth) :
    Shared.new os s =
      (orError (narrow 32 (divCeil (s.depth * s.format.rate) (s.blockFrames.toNat * 1000000000)))
        (.invalid "ring too large") >>= fun blocks =>
          Mapping.create os (max blocks 2) (s.blockFrames.toNat * s.format.frameBytes)) ∧
      s.blockFrames.toNat * s.format.frameBytes < 2 ^ 50 := by
  have hframes : s.blockFrames.toNat < 2 ^ 32 := s.blockFrames.toNat_lt
  have hbytes := hs.format.frameBytes_lt
  have hpayload : s.blockFrames.toNat * s.format.frameBytes < 2 ^ 50 := by
    calc
      s.blockFrames.toNat * s.format.frameBytes < 2 ^ 32 * 2 ^ 18 := Nat.mul_lt_mul'' hframes hbytes
      _ = 2 ^ 50 := by norm_num
  refine ⟨?_, hpayload⟩
  rw [Shared.new, if_neg hvalid, if_neg hdepth, hs.depth.mul_ok hs.format.rate, period_ok hframes,
    hs.format.frameBytes64]
  have hchecked : checkedMul 64 s.blockFrames.toNat s.format.frameBytes =
      some (s.blockFrames.toNat * s.format.frameBytes) := narrow_ok (by omega)
  show (orError _ _ >>= fun blocks => orError (checkedMul 64 s.blockFrames.toNat
    s.format.frameBytes) _ >>= fun payloadLen => Mapping.create os (max blocks 2) payloadLen) = _
  rw [hchecked]
  rfl

/-- **`Shared::new` does not overflow**, whether it accepts the settings or not. -/
lemma Shared.new_ne_overflow (hs : s.Typed) : Shared.new os s ≠ .error .overflow := by
  by_cases hvalid : s.format.valid = false ∨ s.blockFrames = 0
  · rw [Shared.new, if_pos hvalid]
    exact nofun
  by_cases hdepth : s.depth < minDepth
  · rw [Shared.new, if_neg hvalid, if_pos hdepth]
    exact nofun
  obtain ⟨hnew, hpayload⟩ := Shared.new_eq os hs hvalid hdepth
  rw [hnew]
  exact bind_ne_overflow (orError_ne_overflow _ _) fun blocks _ =>
    Mapping.create_ne_overflow hpayload

/-- **The ring of a track**: it is laid out, it is the one of the track's model, and it is as
deep as the settings ask for. -/
lemma Shared.new_spec (hs : s.Typed) (hm : Shared.new os s = .ok m) :
    m.Laid ∧ Ring.create s = some m.ring ∧
      s.depth * s.format.rate ≤ m.blocks * s.blockFrames.toNat * 1000000000 := by
  by_cases hvalid : s.format.valid = false ∨ s.blockFrames = 0
  · rw [Shared.new, if_pos hvalid] at hm
    cases hm
  by_cases hdepth : s.depth < minDepth
  · rw [Shared.new, if_neg hvalid, if_pos hdepth] at hm
    cases hm
  obtain ⟨hnew, hpayload⟩ := Shared.new_eq os hs hvalid hdepth
  rw [hnew] at hm
  obtain ⟨blocks, hblocks, hm⟩ := of_bind_ok hm
  obtain ⟨hnarrow, rfl⟩ := narrow_eq_some (orError_eq_ok hblocks)
  obtain ⟨hlaid, hmblocks, hmpayload⟩ :=
    Mapping.laid_of_create hm (le_max_right _ _) (by omega) hpayload
  have hpos : 0 < s.blockFrames.toNat * 1000000000 := by
    push Not at hvalid
    have hne : s.blockFrames.toNat ≠ 0 := fun h0 => hvalid.2 (UInt32.toNat_inj.mp h0)
    omega
  refine ⟨hlaid, ?_, ?_⟩
  · rw [divCeil_eq _ hpos] at hnarrow hmblocks
    rw [Ring.create, if_neg hvalid, if_neg hdepth]
    dsimp only
    rw [if_pos hnarrow, Mapping.ring, hmblocks, hmpayload]
  · have hle := le_divCeil_mul (s.depth * s.format.rate) hpos
    rw [hmblocks, Nat.mul_assoc]
    exact hle.trans (Nat.mul_le_mul_right _ (le_max_left _ _))

/-! ### The other side -/

/-- **The other side maps the ring that was created**, if the operating system lets it. -/
lemma Mapping.Laid.map (h : m.Laid) (hprobe : os.maps headerLen = true)
    (hview : os.maps m.segment.len = true) : Mapping.map os m.segment = .ok m := by
  have hlen := h.len
  have hfits := h.fits
  have hroom := h.room
  have hpayload := h.payload
  have hblocks := h.blocks
  have htight := h.tight
  have hpieces : m.blockLen ≤ m.blocks * m.blockLen :=
    Nat.le_mul_of_pos_left _ (by omega)
  have hheader : 0 < headerLen := by decide
  have hprobed : m.segment.view os headerLen = .ok { m.segment with len := headerLen } := by
    rw [Segment.view, if_neg]
    rw [hprobe]
    rintro (h0 | h0 | h0)
    · omega
    · omega
    · cases h0
  have hviewed : m.segment.view os m.segment.len = .ok m.segment := by
    rw [Segment.view, if_neg]
    rw [hview]
    rintro (h0 | h0 | h0)
    · omega
    · omega
    · cases h0
  have hmapLen : mapLen m.blocks m.blockLen = some m.segment.len :=
    mapLen_eq_some.mpr ⟨by omega, by omega, by omega, hlen⟩
  have hsound : ¬ (magic ≠ magic ∨ version ≠ version ∨ m.blocks < 2 ∨
      m.blockLen % blockAlign ≠ 0 ∨
      m.blockLen < min (blockHeaderLen + m.payloadLen) (2 ^ 64 - 1) ∨
      mapLen m.blocks m.blockLen ≠ some m.segment.len) := by
    rintro (h0 | h0 | h0 | h0 | h0 | h0)
    · exact h0 rfl
    · exact h0 rfl
    · omega
    · exact h0 (Nat.mod_eq_zero_of_dvd h.aligned)
    · have hmin := min_le_left (blockHeaderLen + m.payloadLen) (2 ^ 64 - 1)
      omega
    · exact h0 hmapLen
  have hblockHeader : blockHeaderLen = 64 := rfl
  have halign : blockAlign = 64 := rfl
  rw [Mapping.map, hprobed]
  show (orError (narrow 64 m.segment.header.blockLen) _ >>= _) = _
  rw [h.header, narrow_ok (show m.blockLen < 2 ^ 64 by omega)]
  show (orError (narrow 64 m.payloadLen) _ >>= _) = _
  rw [narrow_ok (show m.payloadLen < 2 ^ 64 by omega)]
  show (orError (narrow 64 m.segment.len) _ >>= _) = _
  rw [narrow_ok hfits]
  show (if _ then _ else _) = _
  rw [if_neg hsound, hviewed]
  show (if m.segment.header ≠ _ then _ else _) = _
  rw [if_neg fun h0 => h0 h.header]

/-- The offset of a block. -/
lemma Mapping.Laid.block (h : m.Laid) {cursor : ℕ} (hpos : 0 < cursor) :
    m.block cursor = .ok (headerLen + m.ring.index cursor * m.blockLen) ∧
      headerLen + m.ring.index cursor * m.blockLen + m.blockLen ≤ m.segment.len := by
  have hlen := h.len
  have hfits := h.fits
  have hblocks := h.blocks
  have hindex : (cursor - 1) % m.blocks < m.blocks := Nat.mod_lt _ (by omega)
  have hle := stride_le m.blockLen hindex
  have hspan : headerLen + (cursor - 1) % m.blocks * m.blockLen + m.blockLen ≤ m.segment.len := by
    omega
  refine ⟨?_, hspan⟩
  rw [Mapping.block, sub_ok hpos]
  show (mul 64 ((cursor - 1) % m.blocks) m.blockLen >>= fun n => add 64 headerLen n) = _
  rw [mul_ok (by omega)]
  exact add_ok (by omega)

lemma Mapping.Laid.block_aligned (h : m.Laid) (i : ℕ) :
    (headerLen + i * m.blockLen) % blockAlign = 0 := by
  refine Nat.mod_eq_zero_of_dvd (Nat.dvd_add ?_ ?_)
  · decide
  · exact h.aligned.mul_left i

/-- **The descriptor of a format loses nothing.** -/
lemma Mapping.Laid.descriptor (h : m.Laid) {format : Format} (hformat : format.Typed)
    (hnarrow : m.payloadLen / format.frameBytes < 2 ^ 32) :
    m.descriptor format = .ok ⟨format, m.payloadLen / format.frameBytes, m.blocks⟩ := by
  rw [Mapping.descriptor, hformat.frameBytes64]
  show Except.ok (⟨format, m.payloadLen / format.frameBytes % 2 ^ 32, m.blocks % 2 ^ 32⟩ :
    Descriptor) = _
  rw [Nat.mod_eq_of_lt hnarrow, Nat.mod_eq_of_lt h.blocks.2]

/-- **The latency of a reader** is below the depth of the ring it reads. -/
lemma Mapping.Laid.latency (h : m.Laid) {d : Descriptor} (hd : d.Typed)
    (hfits : m.ring.fits d = true) {latency : ℕ} (hl : IsDuration latency) :
    latencyBlocks d latency = .ok (Reader.new d latency).latency ∧
      (Reader.new d latency).latency < m.blocks := by
  have hblocks := h.blocks
  simp only [Ring.fits, Bool.and_eq_true, decide_eq_true_eq] at hfits
  obtain ⟨⟨⟨-, hframes⟩, hdepth⟩, -⟩ := hfits
  have hdepth : m.blocks = d.blocks := hdepth
  have hpos : 0 < d.blockFrames * 1000000000 := by omega
  have hlatency : (Reader.new d latency).latency =
      min (divCeil (latency * d.format.rate) (d.blockFrames * 1000000000)) (d.blocks - 1) := by
    rw [divCeil_eq _ hpos]
    rfl
  have hmin := min_le_right (divCeil (latency * d.format.rate) (d.blockFrames * 1000000000))
    (d.blocks - 1)
  rw [hlatency]
  refine ⟨?_, by omega⟩
  rw [latencyBlocks, hl.mul_ok hd.format.rate, period_ok hd.blockFrames]
  show (sub d.blocks 1 >>= _) = _
  rw [sub_ok (by omega)]
  show Except.ok (min _ (d.blocks - 1) % 2 ^ 64) = _
  rw [Nat.mod_eq_of_lt (by omega)]

/-! ### The track -/

/-- The track has the ring of the mapping, and a frame of its writer's format fits a block. -/
structure Track.Geared (m : Mapping) (t : Track) : Prop where
  blocks : t.ring.blocks = m.blocks
  payloadLen : t.ring.payloadLen = m.payloadLen
  format : t.writer.format.Typed
  frame : t.writer.format.frameBytes ≤ m.payloadLen

/-- The format of a writer changes by a reconfiguration only. -/
lemma Writer.format_step {r : Ring} {w : Writer} {l : WriterLabel} {x : Ring × Writer}
    (hs : w.step r l = some x) : x.2.format = w.format ∨ ∃ format, l = .reconfigure format ∧
      x.2.format = format ∧ format.frameBytes ≤ r.payloadLen := by
  cases l with
  | store =>
      rw [Writer.step, Writer.store] at hs
      split at hs
      · cases hs
      all_goals
        cases hs
        exact Or.inl rfl
  | write samples hostTimeNs =>
      rw [Writer.step] at hs
      split_ifs at hs
      cases hs
      rw [Writer.write]
      split_ifs
      · exact Or.inl rfl
      · exact Or.inl rfl
  | discontinuity =>
      rw [Writer.step] at hs
      split_ifs at hs
      cases hs
      exact Or.inl rfl
  | reconfigure format =>
      rw [Writer.step] at hs
      split_ifs at hs
      cases hs
      rw [Writer.reconfigure]
      split_ifs with herror
      · exact Or.inl rfl
      · push Not at herror
        exact Or.inr ⟨format, rfl, rfl, herror.2.1⟩

variable {t t' : Track}

/-- **Every step keeps the geometry.** -/
lemma Track.Geared.step (h : t.Geared m) (hp : t.Plays) {l : TrackLabel} (hl : t.Typed l)
    (hs : t.step l = some t') : t'.Geared m := by
  cases l with
  | writer l =>
      obtain ⟨x, hx, rfl⟩ := Option.map_eq_some_iff.mp hs
      obtain ⟨-, hadvances⟩ := hp.writing.step hx
      have hblocks := hadvances.blocks.trans h.blocks
      have hpayloadLen := hadvances.payloadLen.trans h.payloadLen
      rcases Writer.format_step hx with hsame | ⟨format, rfl, hformat, hframe⟩
      · refine ⟨hblocks, hpayloadLen, ?_, ?_⟩
        · rw [hsame]
          exact h.format
        · rw [hsame]
          exact h.frame
      · refine ⟨hblocks, hpayloadLen, ?_, ?_⟩
        · rw [hformat]
          exact hl
        · rw [hformat, ← h.payloadLen]
          exact hframe
  | attach d latency =>
      rw [Track.step] at hs
      split_ifs at hs
      cases hs
      exact ⟨h.blocks, h.payloadLen, h.format, h.frame⟩
  | read i =>
      obtain ⟨r, -, hs⟩ := Option.bind_eq_some_iff.mp hs
      obtain ⟨r', -, hs⟩ := Option.bind_eq_some_iff.mp hs
      cases hs
      exact ⟨h.blocks, h.payloadLen, h.format, h.frame⟩
  | load i =>
      obtain ⟨r, -, hs⟩ := Option.bind_eq_some_iff.mp hs
      obtain ⟨r', -, hs⟩ := Option.bind_eq_some_iff.mp hs
      cases hs
      exact ⟨h.blocks, h.payloadLen, h.format, h.frame⟩

lemma Track.Geared.of_starts (hs : s.Typed) (hm : Shared.new os s = .ok m) (h : t.Starts s) :
    t.Geared m := by
  obtain ⟨ring, hring, rfl⟩ := h
  obtain ⟨-, hcreate, -⟩ := Shared.new_spec hs hm
  have hsame : ring = m.ring := Option.some.inj (hring.symm.trans hcreate)
  subst hsame
  obtain ⟨-, -, hpayload⟩ := Ring.create_eq hcreate
  have hframes : 0 < s.blockFrames.toNat := by
    by_contra h0
    have hzero : s.blockFrames = 0 := UInt32.toNat_inj.mp (Nat.eq_zero_of_not_pos h0)
    rw [Ring.create, if_pos (Or.inr hzero)] at hcreate
    cases hcreate
  refine ⟨rfl, rfl, hs.format, ?_⟩
  have hlen : m.payloadLen = s.blockFrames.toNat * s.format.frameBytes :=
    congrArg Ring.payloadLen hpayload
  show s.format.frameBytes ≤ m.payloadLen
  rw [hlen]
  exact Nat.le_mul_of_pos_left _ hframes

/-- **What both sides of a track rely on.** -/
structure Agrees (s : Settings) (m : Mapping) (t : Track) : Prop where
  /-- the ring of the track has this geometry -/
  ring : t.ring.blocks = m.blocks ∧ t.ring.payloadLen = m.payloadLen
  /-- the other side maps the ring with this geometry -/
  mapped : ∀ os, os.maps headerLen = true → os.maps m.segment.len = true →
    Mapping.map os m.segment = .ok m
  /-- the ring of every writer of a recording track has this geometry -/
  created : ∀ os m', Mapping.create os m.blocks m.payloadLen = .ok m' → m' = m
  /-- the descriptor of the writer fits, and its fields have not been cut -/
  descriptor : ∃ d, m.descriptor t.writer.format = .ok d ∧ m.ring.fits d = true ∧
    d = ⟨t.writer.format, m.payloadLen / t.writer.format.frameBytes, m.blocks⟩
  /-- blocks are behind the header, aligned, and within the segment -/
  inside : ∀ cursor, 0 < cursor → ∃ offset, m.block cursor = .ok offset ∧ headerLen ≤ offset ∧
    offset % blockAlign = 0 ∧ offset + m.blockLen ≤ m.segment.len
  room : blockHeaderLen + m.payloadLen ≤ m.blockLen
  /-- two cursors share a block, or their blocks do not overlap -/
  disjoint : ∀ c c' offset offset', 0 < c → 0 < c' → m.block c = .ok offset →
    m.block c' = .ok offset' → t.ring.index c = t.ring.index c' ∧ offset = offset' ∨
      offset + m.blockLen ≤ offset' ∨ offset' + m.blockLen ≤ offset
  /-- the blocks hold what the settings ask for: the depth is in nanoseconds -/
  depth : s.depth * s.format.rate ≤ m.blocks * s.blockFrames.toNat * 1000000000
  /-- and so in the writer's format, unless its blocks are shorter than those of the settings -/
  deep : ∀ d, m.descriptor t.writer.format = .ok d →
    s.blockFrames.toNat * d.format.rate ≤ d.blockFrames * s.format.rate →
      s.depth * d.format.rate ≤ d.blocks * d.blockFrames * 1000000000
  latency : ∀ r ∈ t.readers, r.latency < m.blocks
  /-- the latency of a reader is computed without overflow -/
  latencies : ∀ d latency, d.Typed → m.ring.fits d = true → IsDuration latency →
    latencyBlocks d latency = .ok (Reader.new d latency).latency ∧
      (Reader.new d latency).latency < m.blocks
  /-- a write that is accepted passes the checks of a reader -/
  write : ∀ samples hostTimeNs, ¬ (samples = [] ∨
      samples.length % t.writer.format.frameBytes ≠ 0 ∨ t.ring.payloadLen < samples.length) →
    let b := t.writer.next samples hostTimeNs
    Format.fromBlock b.format.rate b.format.channels b.format.layout.code b.format.sample.code =
        some b.format ∧
      b.frames * b.format.frameBytes = samples.length ∧
      acceptsBlock m.payloadLen b.format b.frames = .ok true

/-- A block that readers accept passes the check in 64-bit arithmetic. -/
lemma Written.WellFormed.accepts {b : Written} (h : b.WellFormed m.payloadLen)
    (hformat : b.format.Typed) (hm : m.Laid) :
    acceptsBlock m.payloadLen b.format b.frames = .ok true := by
  have hfits := h.fits
  have hpayload := hm.payload
  have hpos := h.pos
  rw [acceptsBlock, if_neg (by omega), hformat.frameBytes64]
  show (mul 64 b.frames b.format.frameBytes >>= _) = _
  rw [mul_ok (by rw [h.frames]; omega), h.frames]
  show Except.ok (decide (b.samples.length ≤ m.payloadLen)) = _
  rw [decide_eq_true hfits]

/-- A ring that is deep enough for its settings is so for every format whose blocks do not last
shorter. -/
lemma deep_of_lasting {depth rate frames blocks rate' frames' : ℕ} (hrate : 0 < rate)
    (hdepth : depth * rate ≤ blocks * frames * 1000000000)
    (hlasts : frames * rate' ≤ frames' * rate) :
    depth * rate' ≤ blocks * frames' * 1000000000 := by
  refine Nat.le_of_mul_le_mul_right ?_ hrate
  calc
    depth * rate' * rate = depth * rate * rate' := by ring
    _ ≤ blocks * frames * 1000000000 * rate' := Nat.mul_le_mul_right _ hdepth
    _ = blocks * 1000000000 * (frames * rate') := by ring
    _ ≤ blocks * 1000000000 * (frames' * rate) := Nat.mul_le_mul_left _ hlasts
    _ = blocks * frames' * 1000000000 * rate := by ring

/-- **The geometry of an audio track agrees on both sides.** `Shared::new` does not overflow;
and for settings that it accepts, in every state of the track, with any formats that its
writer has switched to: the ring maps on the other side, the writer's descriptor fits it and
has not been cut, blocks are within the segment and do not overlap, the ring is as deep as
the settings ask for (in the writer's format too, as long as its blocks last no shorter), the
latency of every reader is below its depth, and every write that is accepted is one that a
reader accepts. -/
theorem geometry_agrees (hs : s.Typed) : Shared.new os s ≠ .error .overflow ∧
    ∀ m, Shared.new os s = .ok m → ∀ t₀ t : Track, t₀.Starts s →
      Reaches Track.step Track.Typed t₀ t → Agrees s m t := by
  refine ⟨Shared.new_ne_overflow hs, fun m hm t₀ t h₀ h => ?_⟩
  obtain ⟨hlaid, hcreate, hdepth⟩ := Shared.new_spec hs hm
  have hall : t.Plays ∧ t.Geared m := by
    refine h.invariant (P := fun t => t.Plays ∧ t.Geared m)
      ⟨Track.Plays.of_starts h₀, Track.Geared.of_starts hs hm h₀⟩ fun a l b hp hl hs => ?_
    exact ⟨hp.1.step hs, hp.2.step hp.1 hl hs⟩
  obtain ⟨hplays, hgeared⟩ := hall
  have hwriting := hplays.writing
  have hframe := Format.frameBytes_pos hwriting.valid
  have hrate : 0 < s.format.rate := Format.rate_pos (Ring.create_eq hcreate).1
  have hnarrow : m.payloadLen / t.writer.format.frameBytes < 2 ^ 32 := by
    rw [← hgeared.payloadLen]
    exact hwriting.narrow
  constructor
  case ring => exact ⟨hgeared.blocks, hgeared.payloadLen⟩
  case mapped => exact fun os' hprobe hview => hlaid.map hprobe hview
  case created =>
    intro os' m' hm'
    obtain ⟨hlaid', hblocks, hpayload⟩ :=
      Mapping.laid_of_create hm' hlaid.blocks.1 hlaid.blocks.2 hlaid.payload
    exact hlaid.unique hlaid' hblocks hpayload
  case descriptor =>
    refine ⟨_, hlaid.descriptor hgeared.format hnarrow, ?_, rfl⟩
    have hframes : m.payloadLen / t.writer.format.frameBytes ≠ 0 :=
      (Nat.div_pos hgeared.frame hframe).ne'
    simp only [Ring.fits, Bool.and_eq_true, decide_eq_true_eq]
    exact ⟨⟨⟨hwriting.valid, hframes⟩, rfl⟩, rfl⟩
  case inside =>
    intro cursor hpos
    obtain ⟨hblock, hle⟩ := hlaid.block hpos
    exact ⟨_, hblock, Nat.le_add_right _ _, hlaid.block_aligned _, hle⟩
  case room => exact hlaid.room
  case disjoint =>
    intro c c' offset offset' hc hc' hoffset hoffset'
    cases (hlaid.block hc).1.symm.trans hoffset
    cases (hlaid.block hc').1.symm.trans hoffset'
    have hindex : ∀ n, t.ring.index n = m.ring.index n := by
      intro n
      rw [Ring.index, hgeared.blocks]
      rfl
    rw [hindex, hindex]
    by_cases hsame : m.ring.index c = m.ring.index c'
    · rw [hsame]
      exact Or.inl ⟨rfl, rfl⟩
    · have hdisjoint := stride_disjoint m.blockLen hsame
      omega
  case depth => exact hdepth
  case deep =>
    intro d hd hlasts
    cases (hlaid.descriptor hgeared.format hnarrow).symm.trans hd
    exact deep_of_lasting hrate hdepth hlasts
  case latency =>
    intro r hr
    rw [← hgeared.blocks]
    exact (hplays.readers r hr).2.latency
  case latencies => exact fun d latency hd hfits hl => hlaid.latency hd hfits hl
  case write =>
    intro samples hostTimeNs haccepted
    push Not at haccepted
    obtain ⟨hempty, hwhole, hfits⟩ := haccepted
    have hwell := hwriting.wellFormed hostTimeNs hempty hwhole hfits
    refine ⟨Format.fromBlock_code hwriting.valid, hwell.frames, ?_⟩
    rw [hgeared.payloadLen] at hwell
    exact hwell.accepts hgeared.format hlaid

/-- A system with memory for everything. -/
def ampleOs : Os := ⟨fun _ => true, fun _ => true⟩

/-- The ring of `tinySettings`: two blocks of 128 bytes behind the header. -/
def tinyMapping : Mapping := ⟨⟨512, ⟨magic, version, 2, 128, 1, 512⟩⟩, 2, 128, 1⟩

/-- `tinyFormat` at twice the rate. -/
def fastFormat : Format := ⟨16, 1, .mono, .u8⟩

/-- A track of `tinySettings` whose writer has switched to `fastFormat`, with a reader. -/
def fastTrack : Track := play Track.step { ring := tinyRing, writer := { format := tinyFormat } }
  [.writer (.reconfigure fastFormat), .attach ⟨fastFormat, 1, 2⟩ 125000000]

lemma typed_tinySettings : tinySettings.Typed :=
  ⟨⟨by decide, by decide⟩, by unfold IsDuration; decide⟩

lemma new_tinyMapping : Shared.new ampleOs tinySettings = .ok tinyMapping := by decide +kernel

lemma reaches_fastTrack : Reaches Track.step Track.Typed
    { ring := tinyRing, writer := { format := tinyFormat } } fastTrack := by
  refine (Reaches.refl.tail (l := .writer (.reconfigure fastFormat)) ⟨by decide, by decide⟩
    rfl).tail (l := .attach ⟨fastFormat, 1, 2⟩ 125000000) ?_ rfl
  exact ⟨⟨⟨by decide, by decide⟩, by decide⟩, by unfold IsDuration; decide⟩

theorem geometry_agrees_fast : Shared.new ampleOs tinySettings = .ok tinyMapping ∧
    fastTrack.writer.format = fastFormat ∧ fastTrack.readers.map (·.latency) = [1] ∧
    Agrees tinySettings tinyMapping fastTrack :=
  ⟨new_tinyMapping, by decide +kernel, by decide +kernel, (geometry_agrees typed_tinySettings).2 _
    new_tinyMapping _ _ ⟨tinyRing, create_tiny, rfl⟩ reaches_fastTrack⟩

/-- At twice the rate the two blocks last half as long as the settings ask for. -/
theorem shallow_fast : ¬ ∀ (os : Os) (s : Settings) (m : Mapping) (t₀ t : Track) (d : Descriptor),
    s.Typed → Shared.new os s = .ok m → t₀.Starts s → Reaches Track.step Track.Typed t₀ t →
      m.descriptor t.writer.format = .ok d →
        s.depth * d.format.rate ≤ d.blocks * d.blockFrames * 1000000000 := by
  intro hclaim
  have hshallow := hclaim _ _ _ _ _ ⟨fastFormat, 1, 2⟩ typed_tinySettings new_tinyMapping
    ⟨tinyRing, create_tiny, rfl⟩ reaches_fastTrack (by decide +kernel)
  exact absurd hshallow (by decide)

end Jackstay.Audio
