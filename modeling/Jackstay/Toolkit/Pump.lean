import Jackstay.Acquisition.Arena.Resizing
import Jackstay.Input.Model

/-!
`jackstay-producer/src/lib.rs`: the pump of a source, which copies the frames of its producer
into the arena.

The pump keeps a copy of what is installed in the arena: for which frames, with which
capacity, and which replacement is pending. It runs beside everything else that happens in
the arena, but for other reconfigurations: the consumers, and the calls that serve them while
the pump does not hold the lock of the arena.

* `Pump.step`: one step of the loop of `pump`, or of the arena.
* `Fine`: what a call on the arena has to respect, by the arena it is made on and the calls
  before it.
* `arena_never_tripped`: in every run every call of the pump respects it, the copy is exact
  whenever the pump is not itself in a reconfiguration, and the revisions that it passes to
  `set_geometry` increase.
-/

namespace Jackstay.Toolkit

open Transition Acquisition
open Input (Geometry F64)

/-! ### The pump -/

/-- Width, height and stride. -/
abbrev Dims : Type := ℕ × ℕ × ℕ

/-- `Frame`. -/
structure Frame where
  descriptor : FrameDescriptor
  bytes : List UInt8
  deriving DecidableEq, Repr

/-- The `dims` of a descriptor. -/
def dims (d : FrameDescriptor) : Dims := (d.width, d.height, d.stride)

/-- A call that the pump has made on the arena: the arena it was made on, the frame size it
was made for and the `capacity` of the pump. -/
structure ArenaCall where
  arena : Arena
  op : Arena.Op
  dims : Dims
  capacity : ℕ

/-- Where the loop is. -/
inductive PumpPc where
  /-- at its head -/
  | turn
  /-- `input_geometry` has been asked, and no frame yet -/
  | reported (geometry : Option (F64 × F64))
  /-- in `reconfigure_cpu` or `advance_reconfiguration`, with the `logical` of the frame -/
  | replacing (frame : Frame) (logical : Option (F64 × F64))
  /-- in `publish` -/
  | publishing (frame : Frame)
  /-- behind the loop -/
  | stopped
  /-- `pending.take().unwrap()` has found nothing -/
  | panicked
  deriving DecidableEq

/-- The locals of `pump`, and the arena. `calls` and `revisions` are history variables: the
calls on the arena and the revisions passed to `set_geometry`. -/
structure Pump where
  arena : Arena
  size : Option Dims := none
  pending : Option (Dims × ℕ) := none
  capacity : ℕ
  geometry : Geometry
  pc : PumpPc := .turn
  calls : List ArenaCall := []
  revisions : List UInt64 := []

namespace Pump

/-- Leave the loop. -/
def stop (p : Pump) : Pump := { p with pc := .stopped }

/-- The frame is given back, and the next turn begins. -/
def recycle (p : Pump) (recycled : Bool) : Pump :=
  if recycled then { p with pc := .turn } else p.stop

/-- `apply_logical`; `accepts` is the answer of `set_geometry`. -/
def applyLogical (p : Pump) (width height : F64) (accepts : Geometry → Bool) : Pump × Bool :=
  if p.geometry.width.eq width && p.geometry.height.eq height then (p, true)
  else if 2 ^ 64 ≤ p.geometry.revision.toNat + 1 then (p, false)
  else
    let next : Geometry := ⟨p.geometry.revision + 1, width, height⟩
    let p := { p with revisions := p.revisions ++ [next.revision] }
    if accepts next then ({ p with geometry := next }, true) else (p, false)

/-- Begin a call on the arena. -/
def call (p : Pump) (op : Arena.Op) (dims : Dims) (pc : PumpPc) : Option Pump :=
  (p.arena.step (.call op)).map fun arena =>
    { p with arena, pc, calls := p.calls ++ [⟨p.arena, op, dims, p.capacity⟩] }

/-- `publish`. -/
def publish (p : Pump) (frame : Frame) : Option Pump :=
  p.call (.publish (.cpu frame.descriptor frame.bytes)) (dims frame.descriptor) (.publishing frame)

/-- The `logical` of a frame; `none` when the callback has panicked. -/
def logical (p : Pump) (frame : Frame) (reported : Option (F64 × F64))
    (inputSize : ℕ → ℕ → Option (F64 × F64)) : Option (Option (F64 × F64)) :=
  let dims := dims frame.descriptor
  let replacing := (p.pending.map Prod.fst).getD dims
  if p.pending.isSome ∨ (∃ old ∈ p.size, old ≠ dims) ∨ p.capacity < frame.bytes.length then
    match reported with
    | some logical => some (some logical)
    | none => (inputSize replacing.1 replacing.2.1).map some
  else some none

/-- The caller's initial arena is not replaced when its size is right. -/
def adopt (p : Pump) (frame : Frame) : Pump :=
  if p.size = none ∧ p.pending = none ∧ frame.bytes.length ≤ p.capacity then
    { p with size := some (dims frame.descriptor) }
  else p

/-- The first call on the arena for a frame. -/
def request (p : Pump) (frame : Frame) (logical : Option (F64 × F64)) : Option Pump :=
  let dims := dims frame.descriptor
  if p.pending.isSome ∨ p.size ≠ some dims ∨ p.capacity < frame.bytes.length then
    if p.pending.isSome then p.call .advanceReconfiguration dims (.replacing frame logical)
    else ({ p with pending := some (dims, frame.bytes.length) } : Pump).call
      (.reconfigureCpu frame.bytes.length) dims (.replacing frame logical)
  else p.publish frame

/-- The geometry that goes with the replacement, if the frame has come with one. -/
def applyIf (p : Pump) (logical : Option (F64 × F64)) (accepts : Geometry → Bool) : Pump × Bool :=
  match logical with
  | some (width, height) => p.applyLogical width height accepts
  | none => (p, true)

/-- The replacement is installed; the frame may have grown or changed meanwhile. -/
def installed (p : Pump) (size : Dims) (bytes : ℕ) (frame : Frame) (recycled : Bool) :
    Option Pump :=
  let p := { p with size := some size, capacity := bytes }
  if size ≠ dims frame.descriptor ∨ bytes < frame.bytes.length then some (p.recycle recycled)
  else p.publish frame

/-- The answer of the reconfiguration that a frame has asked for. -/
def answered (p : Pump) (frame : Frame) (logical : Option (F64 × F64))
    (accepts : Geometry → Bool) (recycled : Bool) : Outcome → Option Pump
  | .ready _ =>
      match p.pending with
      | none => some { p with pc := .panicked }
      | some (size, bytes) =>
          let (p, applied) := ({ p with pending := none } : Pump).applyIf logical accepts
          if applied then p.installed size bytes frame recycled else some p.stop
  | .pausedCapacity _ _ => some (p.recycle recycled)
  | .error _ => some p.stop
  | _ => none

/-- The pump holds the lock of the arena. -/
def locks (p : Pump) : Bool :=
  match p.pc with
  | .replacing _ _ => true
  | .publishing _ => true
  | _ => false

/-- What the others may do in the arena: they wait for its lock, and reconfigure nothing. -/
def Lets (p : Pump) (l : Arena.Label) : Prop :=
  l.Calls fun op => p.locks = false ∧ op.resizes = false

instance (p : Pump) (l : Arena.Label) : Decidable (p.Lets l) := by
  cases l <;> unfold Lets Arena.Label.Calls <;> infer_instance

end Pump

/-- What may happen next. -/
inductive PumpLabel where
  /-- a step of the arena: of the running call, or of the others -/
  | arena (l : Arena.Label)
  /-- the answer of `input_geometry`, and that of `set_geometry` -/
  | report (reported : Except Unit (Option (F64 × F64))) (accepts : Geometry → Bool)
  /-- the answer of `frame`, and that of `input_size` -/
  | frame (frame : Except Unit (Option Frame)) (inputSize : ℕ → ℕ → Option (F64 × F64))
  /-- the arena has answered the reconfiguration -/
  | answer (accepts : Geometry → Bool) (recycled : Bool)
  /-- `publish` has returned -/
  | published (recycled : Bool)
  /-- the source is shut down, or input or a callback has failed -/
  | stop

namespace Pump

/-- **One step of the pump.** -/
def step (p : Pump) : PumpLabel → Option Pump
  | .arena l =>
      if p.Lets l then (p.arena.step l).map fun arena => { p with arena } else none
  | .report reported accepts =>
      match p.pc with
      | .turn =>
          match reported with
          | .error _ => some p.stop
          | .ok none => some { p with pc := .reported none }
          | .ok (some (width, height)) =>
              let (p, applied) := p.applyLogical width height accepts
              some (if applied then { p with pc := .reported (some (width, height)) } else p.stop)
      | _ => none
  | .frame frame inputSize =>
      match p.pc with
      | .reported reported =>
          match frame with
          | .error _ => some p.stop
          | .ok none => some { p with pc := .turn }
          | .ok (some frame) =>
              match p.logical frame reported inputSize with
              | none => some p.stop
              | some logical => (p.adopt frame).request frame logical
      | _ => none
  | .answer accepts recycled =>
      match p.pc with
      | .replacing frame logical =>
          if p.arena.producer.pc = .idle then
            p.answered frame logical accepts recycled p.arena.producer.outcome
          else none
      | _ => none
  | .published recycled =>
      match p.pc with
      | .publishing _ =>
          if p.arena.producer.pc = .idle then
            match p.arena.producer.outcome with
            | .error _ => some p.stop
            | _ => some (p.recycle recycled)
          else none
      | _ => none
  | .stop =>
      match p.pc with
      | .turn => some p.stop
      | .reported _ => some p.stop
      | _ => none

/-- The pump of a source with this arena, whose capacity it is told. -/
def new (arena : Arena) (capacity : ℕ) (geometry : Geometry) : Pump :=
  { arena, capacity, geometry }

end Pump

/-! ### What the calls have to respect -/

/-- The frame size that the configuration is for, after this call: that of the frame whose
replacement it is, or that of the first frame in the initial one. -/
def ArenaCall.configures (c : ArenaCall) (configured : Option Dims) : Option Dims :=
  match c.op with
  | .reconfigureCpu _ => some c.dims
  | .publish _ => configured.or (some c.dims)
  | _ => configured

/-- The frame size that the configuration is for, after these calls. -/
def configured (calls : List ArenaCall) : Option Dims :=
  calls.foldl (fun configured c => c.configures configured) none

/-- **What a call has to respect**: a replacement is asked for when none is pending, and
advanced when one is; a frame fits the installed allocation and has the size that the
configuration is for. Wherever an allocation is installed, the pump knows its capacity. -/
structure Fine (before : List ArenaCall) (c : ArenaCall) : Prop where
  cached : c.arena.producer.resources ≠ none → c.capacity = c.arena.layout.payloadCapacity
  reconfigure : ∀ n, c.op = .reconfigureCpu n → c.arena.producer.pendingLayout = none
  advance : c.op = .advanceReconfiguration → c.arena.producer.pendingLayout ≠ none
  publish : ∀ d bytes, c.op = .publish (.cpu d bytes) → c.arena.producer.resources ≠ none ∧
    bytes.length ≤ c.arena.layout.payloadCapacity ∧
    ∀ size, configured before = some size → size = dims d
  known : (∃ n, c.op = .reconfigureCpu n) ∨ c.op = .advanceReconfiguration ∨
    ∃ d bytes, c.op = .publish (.cpu d bytes) ∧ c.dims = dims d

/-- Every call respects it, after those before it. -/
def AllFine (calls : List ArenaCall) : Prop :=
  ∀ before c after, calls = before ++ c :: after → Fine before c

lemma configured_append (calls : List ArenaCall) (c : ArenaCall) :
    configured (calls ++ [c]) = c.configures (configured calls) := by
  rw [configured, configured, List.foldl_append]
  rfl

/-- One more call. -/
lemma AllFine.append {calls : List ArenaCall} (h : AllFine calls) {c : ArenaCall}
    (hc : Fine calls c) : AllFine (calls ++ [c]) := by
  intro before c' after heq
  rcases List.eq_nil_or_concat after with rfl | ⟨after', last, rfl⟩
  · obtain ⟨rfl, hlast⟩ := List.append_inj' heq rfl
    cases hlast
    exact hc
  · rw [List.concat_eq_append, ← List.cons_append, ← List.append_assoc] at heq
    obtain ⟨hcalls, -⟩ := List.append_inj' heq rfl
    exact h before c' after' hcalls

/-! ### The invariant -/

namespace Pump

variable {p q : Pump} {l : PumpLabel}

/-- **The copy of the installation is exact.** -/
structure Settled (p : Pump) : Prop where
  calm : p.arena.producer.pc.resizes = false
  installed : p.pending = none → p.arena.producer.pendingLayout = none ∧
    p.arena.layout.payloadCapacity = p.capacity ∧ configured p.calls = p.size
  pending : ∀ dims n, p.pending = some (dims, n) → configured p.calls = some dims ∧
    ∃ layout, p.arena.producer.pendingLayout = some layout ∧ layout.payloadCapacity = n

/-- The copy of the installation, by where the pump is. -/
def Mirrors (p : Pump) : PumpPc → Prop
  | .turn | .reported _ | .publishing _ => Settled p
  | .replacing _ _ => ∃ dims n, p.pending = some (dims, n) ∧ configured p.calls = some dims ∧
      p.arena.Resizing n
  | .stopped => True
  | .panicked => False

/-- The revisions passed to `set_geometry` increase, up to that of the geometry. -/
structure Ordered (p : Pump) : Prop where
  increasing : p.revisions.Pairwise (· < ·)
  bounded : p.pc ≠ .stopped → ∀ r ∈ p.revisions, r ≤ p.geometry.revision

/-- **The invariant of the pump.** -/
structure Sound (p : Pump) : Prop where
  reachable : p.arena.Reachable
  cpu : p.arena.shared.native = false
  mirrors : p.Mirrors p.pc
  fine : AllFine p.calls
  ordered : p.Ordered

lemma Ordered.stop (h : p.Ordered) : p.stop.Ordered := ⟨h.increasing, fun h0 => absurd rfl h0⟩

lemma Sound.stop (h : p.Sound) : p.stop.Sound :=
  ⟨h.reachable, h.cpu, trivial, h.fine, h.ordered.stop⟩

/-- `apply_logical` changes the geometry only, and passes on the next revision. -/
lemma applyLogical_spec (p : Pump) (h : p.Ordered) (hpc : p.pc ≠ .stopped) (width height : F64)
    (accepts : Geometry → Bool) :
    ∃ geometry revisions, (p.applyLogical width height accepts).1 = { p with geometry, revisions } ∧
      revisions.Pairwise (· < ·) ∧ ((p.applyLogical width height accepts).2 = true →
        ∀ r ∈ revisions, r ≤ geometry.revision) := by
  have hbounded := h.bounded hpc
  rw [applyLogical]
  split_ifs with hsame hmax
  · exact ⟨p.geometry, p.revisions, rfl, h.increasing, fun _ => hbounded⟩
  · exact ⟨p.geometry, p.revisions, rfl, h.increasing, nofun⟩
  · have hnext : p.geometry.revision < p.geometry.revision + 1 := by
      rw [UInt64.lt_iff_toNat_lt, UInt64.toNat_add, UInt64.toNat_one]
      omega
    have hincreasing : (p.revisions ++ [p.geometry.revision + 1]).Pairwise (· < ·) := by
      rw [List.pairwise_append]
      refine ⟨h.increasing, List.pairwise_singleton _ _, fun r hr r' hr' => ?_⟩
      rw [List.mem_singleton.mp hr']
      exact UInt64.lt_of_le_of_lt (hbounded r hr) hnext
    have hle : ∀ r ∈ p.revisions ++ [p.geometry.revision + 1], r ≤ p.geometry.revision + 1 := by
      intro r hr
      rcases List.mem_append.mp hr with hr | hr
      · exact UInt64.le_of_lt (UInt64.lt_of_le_of_lt (hbounded r hr) hnext)
      · rw [List.mem_singleton.mp hr]
        exact UInt64.le_refl _
    dsimp only
    split_ifs
    · exact ⟨_, _, rfl, hincreasing, fun _ => hle⟩
    · exact ⟨p.geometry, _, rfl, hincreasing, nofun⟩

/-- The same of a geometry that a frame may have come with. -/
lemma applyIf_spec (p : Pump) (h : p.Ordered) (hpc : p.pc ≠ .stopped)
    (logical : Option (F64 × F64)) (accepts : Geometry → Bool) :
    ∃ geometry revisions, (p.applyIf logical accepts).1 = { p with geometry, revisions } ∧
      revisions.Pairwise (· < ·) ∧ ((p.applyIf logical accepts).2 = true →
        ∀ r ∈ revisions, r ≤ geometry.revision) := by
  cases logical with
  | none => exact ⟨p.geometry, p.revisions, rfl, h.increasing, fun _ => h.bounded hpc⟩
  | some size => exact applyLogical_spec p h hpc size.1 size.2 accepts

/-- Nothing is installed while a replacement is pending. -/
lemma Settled.uninstalled (h : p.Settled) (hledger : Ledger p.arena) {layout : ResourceLayout}
    (hlayout : p.arena.producer.pendingLayout = some layout) :
    p.arena.producer.resources = none := by
  have hcalm := h.calm
  have hrepl : p.arena.producer.pc.replacing = none := by
    cases hpc : p.arena.producer.pc with
    | unconfigure layout => rw [hpc] at hcalm; cases hcalm
    | unpublishLoad layout index => rw [hpc] at hcalm; cases hcalm
    | unpublish layout index state => rw [hpc] at hcalm; cases hcalm
    | firstCursor layout => rw [hpc] at hcalm; cases hcalm
    | _ => rfl
  exact (hledger.installed hrepl).2.1.mpr (by rw [hlayout]; rfl)

/-- What `call` does: the arena's step, and a place in the history. -/
lemma call_eq_some {op : Arena.Op} {size : Dims} {pc : PumpPc} (hs : p.call op size pc = some q) :
    p.arena.producer.pc = .idle ∧ ∃ arena, p.arena.begin op = some arena ∧
      q = { p with arena, pc, calls := p.calls ++ [⟨p.arena, op, size, p.capacity⟩] } := by
  obtain ⟨arena, harena, rfl⟩ := Option.map_eq_some_iff.mp hs
  rw [Arena.step] at harena
  split_ifs at harena with hidle
  exact ⟨hidle, arena, harena, rfl⟩

/-- An arena stays reachable, and of its kind. -/
lemma reachable_step {a b : Arena} (h : a.Reachable) {l : Arena.Label} (hs : a.step l = some b) :
    b.Reachable ∧ b.shared.native = a.shared.native :=
  ⟨h.tail hs, ((Arena.acts_of_step hs).static h.ledger).1⟩

lemma reachable_begin {a b : Arena} (h : a.Reachable) (hidle : a.producer.pc = .idle)
    {op : Arena.Op} (hs : a.begin op = some b) :
    b.Reachable ∧ b.shared.native = a.shared.native :=
  reachable_step h (l := .call op) (by rw [Arena.step, if_pos hidle]; exact hs)

/-- **`publish`**: the frame fits the installed allocation, which is for its size. -/
lemma Sound.publish {frame : Frame} (h : p.arena.Reachable) (hcpu : p.arena.shared.native = false)
    (hfine : AllFine p.calls) (hordered : p.Ordered) (hpc : p.pc ≠ .stopped)
    (hpending : p.pending = none) (hnone : p.arena.producer.pendingLayout = none)
    (hcapacity : p.arena.layout.payloadCapacity = p.capacity)
    (hsize : p.size = some (dims frame.descriptor))
    (hconfigured : configured p.calls = none ∨ configured p.calls = p.size)
    (hlen : frame.bytes.length ≤ p.capacity) (hs : p.publish frame = some q) : q.Sound := by
  obtain ⟨hidle, arena, harena, rfl⟩ := call_eq_some hs
  obtain ⟨harena', hnative⟩ := reachable_begin h hidle harena
  obtain ⟨hsame, hcalm⟩ := Arena.begin_same_installation rfl harena
  have hresources : p.arena.producer.resources ≠ none := by
    intro h0
    have hsome := (h.ledger.installed (by rw [hidle]; rfl)).2.1.mp h0
    rw [hnone] at hsome
    cases hsome
  refine ⟨harena', hnative.trans hcpu, ⟨hcalm, fun _ => ⟨hsame.pending.trans hnone, ?_, ?_⟩, ?_⟩,
    hfine.append ?_, ⟨hordered.increasing, fun _ => hordered.bounded hpc⟩⟩
  · show arena.layout.payloadCapacity = p.capacity
    rw [hsame.layout, hcapacity]
  · show configured (p.calls ++ [_]) = p.size
    rw [configured_append, hsize]
    rcases hconfigured with h0 | h0
    · rw [h0]
      rfl
    · rw [h0, hsize]
      rfl
  · intro size n h0
    rw [hpending] at h0
    cases h0
  · refine ⟨fun _ => hcapacity.symm, nofun, nofun, ?_, Or.inr (Or.inr ⟨_, _, rfl, rfl⟩)⟩
    rintro d bytes hop
    cases hop
    refine ⟨hresources, hcapacity ▸ hlen, fun size h0 => ?_⟩
    rcases hconfigured with h1 | h1
    · rw [h1] at h0
      cases h0
    · rw [h1, hsize] at h0
      exact (Option.some.inj h0).symm

/-- `reconfigure_cpu`: nothing is pending. -/
lemma Sound.reconfigure {frame : Frame} {logical : Option (F64 × F64)} (h : p.Sound)
    (hsettled : p.Settled) (hpc : p.pc ≠ .stopped) (hpending : p.pending = none)
    {size : Dims} {n : ℕ}
    (hs : ({ p with pending := some (size, n) } : Pump).call (.reconfigureCpu n) size
      (.replacing frame logical) = some q) : q.Sound := by
  obtain ⟨hidle, arena, harena, rfl⟩ := call_eq_some hs
  obtain ⟨harena', hnative⟩ := reachable_begin h.reachable hidle harena
  obtain ⟨hnone, hcapacity, -⟩ := hsettled.installed hpending
  have hcpu : p.arena.shared.native = false := h.cpu
  have heq : arena = p.arena.goto (.begin n 0) := by
    simp only [Arena.begin, hcpu, Bool.false_eq_true, if_false, Option.some.injEq] at harena
    exact harena.symm
  refine ⟨harena', hnative.trans h.cpu, ⟨size, n, rfl, ?_, .asked ?_⟩, h.fine.append ?_,
    ⟨h.ordered.increasing, fun _ => h.ordered.bounded hpc⟩⟩
  · rw [configured_append]
    rfl
  · rw [heq]
    simp [Arena.goto, Pc.asks]
  · exact ⟨fun _ => hcapacity.symm, fun m _ => hnone, by rintro ⟨⟩, by rintro _ _ ⟨⟩,
      Or.inl ⟨n, rfl⟩⟩

/-- `advance_reconfiguration`: the replacement is pending. -/
lemma Sound.advance {frame : Frame} {logical : Option (F64 × F64)} (h : p.Sound)
    (hsettled : p.Settled) (hpc : p.pc ≠ .stopped) {size size' : Dims} {n : ℕ}
    (hpending : p.pending = some (size', n))
    (hs : p.call .advanceReconfiguration size (.replacing frame logical) = some q) : q.Sound := by
  obtain ⟨hidle, arena, harena, rfl⟩ := call_eq_some hs
  obtain ⟨harena', hnative⟩ := reachable_begin h.reachable hidle harena
  obtain ⟨hconfigured, layout, hlayout, hn⟩ := hsettled.pending size' n hpending
  have heq : arena = p.arena.goto (.terminal .advance) := (Option.some.inj harena).symm
  refine ⟨harena', hnative.trans h.cpu, ⟨size', n, hpending, ?_, ?_⟩, h.fine.append ?_,
    ⟨h.ordered.increasing, fun _ => h.ordered.bounded hpc⟩⟩
  · rw [configured_append]
    exact hconfigured
  · rw [heq]
    exact .pending layout (Or.inl rfl) hlayout hn
  · refine ⟨fun h0 => ?_, nofun, fun _ => by rw [hlayout]; nofun, nofun, Or.inr (Or.inl rfl)⟩
    have hnone := (h.reachable.ledger.installed (by rw [hidle]; rfl)).2.1.mpr (by rw [hlayout]; rfl)
    exact absurd hnone h0

/-- **A frame is taken up.** -/
lemma Sound.offer {frame : Frame} {logical : Option (F64 × F64)} (h : p.Sound)
    (hsettled : p.Settled) (hpc : p.pc ≠ .stopped)
    (hs : (p.adopt frame).request frame logical = some q) : q.Sound := by
  by_cases hadopt : p.size = none ∧ p.pending = none ∧ frame.bytes.length ≤ p.capacity
  · -- the first frame fits the initial allocation
    obtain ⟨hsize, hpending, hlen⟩ := hadopt
    obtain ⟨hnone, hcapacity, hconfigured⟩ := hsettled.installed hpending
    have hkeep : ¬(p.pending.isSome = true ∨ some (dims frame.descriptor) ≠
        some (dims frame.descriptor) ∨ p.capacity < frame.bytes.length) := by
      simp [hpending, hlen]
    rw [adopt, if_pos ⟨hsize, hpending, hlen⟩] at hs
    have hs := (if_neg hkeep).symm.trans hs
    exact Sound.publish (p := { p with size := some (dims frame.descriptor) }) h.reachable h.cpu
      h.fine ⟨h.ordered.increasing, h.ordered.bounded⟩ hpc hpending hnone hcapacity rfl
      (Or.inl (hconfigured.trans hsize)) hlen hs
  · rw [adopt, if_neg hadopt, request] at hs
    split_ifs at hs with hasks hpending
    · obtain ⟨⟨size, n⟩, hsome⟩ := Option.isSome_iff_exists.mp hpending
      exact h.advance hsettled hpc hsome hs
    · exact h.reconfigure hsettled hpc (by simpa using hpending) hs
    · obtain ⟨hpending, hsize, hlen⟩ : p.pending = none ∧ p.size = some (dims frame.descriptor) ∧
          frame.bytes.length ≤ p.capacity := by
        simpa only [not_or, Option.not_isSome_iff_eq_none, ne_eq, not_not, Nat.not_lt] using hasks
      obtain ⟨hnone, hcapacity, hconfigured⟩ := hsettled.installed hpending
      exact Sound.publish h.reachable h.cpu h.fine h.ordered hpc hpending hnone hcapacity hsize
        (Or.inr hconfigured) hlen hs

/-- The next turn, or the end. -/
lemma Sound.recycle (h : p.arena.Reachable) (hcpu : p.arena.shared.native = false)
    (hfine : AllFine p.calls) (hordered : p.Ordered) (hpc : p.pc ≠ .stopped)
    (hsettled : p.Settled) (recycled : Bool) : (p.recycle recycled).Sound := by
  rw [Pump.recycle]
  split_ifs
  · exact ⟨h, hcpu, ⟨hsettled.calm, hsettled.installed, hsettled.pending⟩, hfine,
      ⟨hordered.increasing, fun _ => hordered.bounded hpc⟩⟩
  · exact ⟨h, hcpu, trivial, hfine, hordered.stop⟩

/-- The copy takes over the replacement that the arena has installed. -/
lemma Sound.installed {size : Dims} {n : ℕ} {frame : Frame} {recycled : Bool}
    (h : p.arena.Reachable) (hcpu : p.arena.shared.native = false)
    (hidle : p.arena.producer.pc = .idle) (hnone : p.arena.producer.pendingLayout = none)
    (hcapacity : p.arena.layout.payloadCapacity = n) (hconfigured : configured p.calls = some size)
    (hfine : AllFine p.calls) (hordered : p.Ordered) (hpc : p.pc ≠ .stopped)
    (hpending : p.pending = none) (hs : p.installed size n frame recycled = some q) : q.Sound := by
  rw [Pump.installed] at hs
  have hordered' : ({ p with size := some size, capacity := n } : Pump).Ordered :=
    ⟨hordered.increasing, hordered.bounded⟩
  split_ifs at hs with hother
  · rw [← Option.some.inj hs]
    refine Sound.recycle (p := { p with size := some size, capacity := n }) h hcpu hfine hordered'
      hpc ⟨?_, fun _ => ⟨hnone, hcapacity, hconfigured⟩, ?_⟩ recycled
    · show p.arena.producer.pc.resizes = false
      rw [hidle]
      rfl
    · intro size' n' h0
      cases hpending.symm.trans h0
  · obtain ⟨hsize, hlen⟩ : size = dims frame.descriptor ∧ frame.bytes.length ≤ n := by
      simpa only [not_or, ne_eq, not_not, Nat.not_lt] using hother
    exact Sound.publish (p := { p with size := some size, capacity := n }) h hcpu hfine hordered'
      hpc hpending hnone hcapacity (congrArg some hsize) (Or.inr hconfigured) hlen hs

/-- **The answer of a reconfiguration** is what the copy takes over. -/
lemma Sound.answered {frame : Frame} {logical : Option (F64 × F64)} {accepts : Geometry → Bool}
    {recycled : Bool} (h : p.Sound) (hpc : p.pc = .replacing frame logical)
    (hidle : p.arena.producer.pc = .idle)
    (hs : p.answered frame logical accepts recycled p.arena.producer.outcome = some q) :
    q.Sound := by
  obtain ⟨size, n, hpending, hconfigured, hresizing⟩ :
      ∃ size n, p.pending = some (size, n) ∧ configured p.calls = some size ∧
        p.arena.Resizing n := by
    have hmirrors := h.mirrors
    rw [hpc] at hmirrors
    exact hmirrors
  have hanswers : p.arena.Answers n p.arena.producer.outcome := hresizing.answers hidle
  have hrunning : p.pc ≠ .stopped := by rw [hpc]; nofun
  have hcalm : p.arena.producer.pc.resizes = false := by rw [hidle]; rfl
  cases houtcome : p.arena.producer.outcome with
  | error e =>
      rw [houtcome] at hs
      rw [← Option.some.inj hs]
      exact h.stop
  | pausedCapacity requested available =>
      rw [houtcome] at hs hanswers
      rw [← Option.some.inj hs]
      refine Sound.recycle h.reachable h.cpu h.fine h.ordered hrunning ⟨hcalm, ?_, ?_⟩ recycled
      · intro h0
        rw [hpending] at h0
        cases h0
      · intro size' n' h0
        rw [hpending] at h0
        cases h0
        exact ⟨hconfigured, hanswers⟩
  | ready g =>
      rw [houtcome] at hs hanswers
      obtain ⟨hnone, hcapacity⟩ := hanswers
      simp only [Pump.answered, hpending] at hs
      obtain ⟨geometry, revisions, heq, hincreasing, hbounded⟩ :=
        applyIf_spec { p with pending := none } ⟨h.ordered.increasing, h.ordered.bounded⟩ hrunning
          logical accepts
      rw [heq] at hs
      split_ifs at hs with happlied
      · exact Sound.installed (p := { p with pending := none, geometry, revisions }) h.reachable
          h.cpu hidle hnone hcapacity hconfigured h.fine ⟨hincreasing, fun _ => hbounded happlied⟩
          hrunning rfl hs
      · rw [← Option.some.inj hs]
        exact ⟨h.reachable, h.cpu, trivial, h.fine, hincreasing, fun h0 => absurd rfl h0⟩
  | _ =>
      rw [houtcome] at hanswers
      exact hanswers.elim

/-- A step of the arena outside of a reconfiguration. -/
lemma Settled.of_same (h : p.Settled) {arena : Arena}
    (hsame : Arena.SameInstallation p.arena arena) (hcalm : arena.producer.pc.resizes = false) :
    ({ p with arena } : Pump).Settled := by
  refine ⟨hcalm, fun h0 => ?_, fun size n h0 => ?_⟩
  · obtain ⟨hnone, hcapacity, hconfigured⟩ := h.installed h0
    exact ⟨hsame.pending.trans hnone, by rw [hsame.layout]; exact hcapacity, hconfigured⟩
  · obtain ⟨hconfigured, layout, hlayout, hn⟩ := h.pending size n h0
    exact ⟨hconfigured, layout, hsame.pending.trans hlayout, hn⟩

/-- **A step of the arena**, of the call that the pump is in or of the others. -/
lemma Sound.arena {l : Arena.Label} {arena : Arena} (h : p.Sound) (hl : p.Lets l)
    (hs : p.arena.step l = some arena) : ({ p with arena } : Pump).Sound := by
  obtain ⟨hreachable, hnative⟩ := reachable_step h.reachable hs
  refine ⟨hreachable, hnative.trans h.cpu, ?_, h.fine, ⟨h.ordered.increasing, h.ordered.bounded⟩⟩
  have hother : l.Calls fun op => op.resizes = false := by
    cases l with
    | call op => exact hl.2
    | _ => trivial
  have settled : p.Settled → ({ p with arena } : Pump).Settled := fun hsettled => by
    obtain ⟨hsame, hcalm⟩ := Arena.step_same_installation h.reachable.ledger hsettled.calm hother hs
    exact hsettled.of_same hsame hcalm
  have kept : ∀ pc, p.pc = pc → p.Mirrors pc → ({ p with arena } : Pump).Mirrors pc := by
    intro pc hpc hmirrors
    cases pc with
    | turn => exact settled hmirrors
    | reported reported => exact settled hmirrors
    | publishing frame => exact settled hmirrors
    | replacing frame logical =>
        obtain ⟨size, n, hpending, hconfigured, hresizing⟩ := hmirrors
        refine ⟨size, n, hpending, hconfigured, hresizing.step h.reachable.ledger ?_ hs⟩
        rintro op rfl
        have hlocks : p.locks = true := by rw [locks, hpc]
        rw [hl.1] at hlocks
        cases hlocks
    | stopped => trivial
    | panicked => exact hmirrors
  exact kept p.pc rfl h.mirrors

/-- The copy is exact between two calls. -/
lemma Sound.settled (h : p.Sound)
    (hpc : p.pc = .turn ∨ (∃ reported, p.pc = .reported reported) ∨
      ∃ frame, p.pc = .publishing frame) : p.Settled := by
  have hmirrors := h.mirrors
  rcases hpc with hpc | ⟨reported, hpc⟩ | ⟨frame, hpc⟩ <;>
    rw [hpc] at hmirrors <;> exact hmirrors

/-- The loop goes on, with the copy as it is. -/
lemma Sound.moved (h : p.Sound) (hsettled : p.Settled) (hrunning : p.pc ≠ .stopped) {pc : PumpPc}
    (hpc : pc = .turn ∨ ∃ reported, pc = .reported reported) : ({ p with pc } : Pump).Sound := by
  have hsettled' : ({ p with pc } : Pump).Settled :=
    ⟨hsettled.calm, hsettled.installed, hsettled.pending⟩
  refine ⟨h.reachable, h.cpu, ?_, h.fine,
    ⟨h.ordered.increasing, fun _ => h.ordered.bounded hrunning⟩⟩
  rcases hpc with rfl | ⟨reported, rfl⟩ <;> exact hsettled'

/-- **The report of a geometry.** -/
lemma Sound.report {reported : Except Unit (Option (F64 × F64))} {accepts : Geometry → Bool}
    (h : p.Sound) (hpc : p.pc = .turn) (hs : p.step (.report reported accepts) = some q) :
    q.Sound := by
  have hsettled := h.settled (Or.inl hpc)
  have hrunning : p.pc ≠ .stopped := by rw [hpc]; nofun
  simp only [Pump.step, hpc] at hs
  rcases reported with _ | _ | ⟨width, height⟩
  · rw [← Option.some.inj hs]
    exact h.stop
  · rw [← Option.some.inj hs]
    exact h.moved hsettled hrunning (Or.inr ⟨none, rfl⟩)
  · obtain ⟨geometry, revisions, heq, hincreasing, hbounded⟩ :=
      applyLogical_spec p h.ordered hrunning width height accepts
    simp only [heq, Option.some.injEq] at hs
    subst hs
    split_ifs with happlied
    · exact ⟨h.reachable, h.cpu, ⟨hsettled.calm, hsettled.installed, hsettled.pending⟩, h.fine,
        hincreasing, fun _ => hbounded happlied⟩
    · exact ⟨h.reachable, h.cpu, trivial, h.fine, hincreasing, fun h0 => absurd rfl h0⟩

/-- **One step of the pump** keeps the invariant. -/
theorem Sound.step (h : p.Sound) (hs : p.step l = some q) : q.Sound := by
  cases l with
  | arena l =>
      simp only [Pump.step] at hs
      split_ifs at hs with hl
      obtain ⟨arena, harena, rfl⟩ := Option.map_eq_some_iff.mp hs
      exact h.arena hl harena
  | report reported accepts =>
      cases hpc : p.pc with
      | turn => exact h.report hpc hs
      | _ =>
          simp only [Pump.step, hpc] at hs
          cases hs
  | frame frame inputSize =>
      cases hpc : p.pc with
      | reported reported =>
          have hsettled := h.settled (Or.inr (Or.inl ⟨reported, hpc⟩))
          have hrunning : p.pc ≠ .stopped := by rw [hpc]; nofun
          simp only [Pump.step, hpc] at hs
          rcases frame with _ | _ | frame
          · rw [← Option.some.inj hs]
            exact h.stop
          · rw [← Option.some.inj hs]
            exact h.moved hsettled hrunning (Or.inl rfl)
          · cases hlogical : p.logical frame reported inputSize with
            | none =>
                simp only [hlogical] at hs
                rw [← Option.some.inj hs]
                exact h.stop
            | some logical =>
                simp only [hlogical] at hs
                exact h.offer hsettled hrunning hs
      | _ =>
          simp only [Pump.step, hpc] at hs
          cases hs
  | answer accepts recycled =>
      cases hpc : p.pc with
      | replacing frame logical =>
          simp only [Pump.step, hpc] at hs
          split_ifs at hs with hidle
          exact h.answered hpc hidle hs
      | _ =>
          simp only [Pump.step, hpc] at hs
          cases hs
  | published recycled =>
      cases hpc : p.pc with
      | publishing frame =>
          have hsettled := h.settled (Or.inr (Or.inr ⟨frame, hpc⟩))
          have hrunning : p.pc ≠ .stopped := by rw [hpc]; nofun
          simp only [Pump.step, hpc] at hs
          split_ifs at hs with hidle
          split at hs <;> rw [← Option.some.inj hs]
          · exact h.stop
          · exact Sound.recycle h.reachable h.cpu h.fine h.ordered hrunning hsettled recycled
      | _ =>
          simp only [Pump.step, hpc] at hs
          cases hs
  | stop =>
      cases hpc : p.pc with
      | turn =>
          simp only [Pump.step, hpc] at hs
          rw [← Option.some.inj hs]
          exact h.stop
      | reported reported =>
          simp only [Pump.step, hpc] at hs
          rw [← Option.some.inj hs]
          exact h.stop
      | _ =>
          simp only [Pump.step, hpc] at hs
          cases hs

/-- The pump begins with the capacity that the arena was created with. -/
lemma Sound.new {page : ℕ} {config : ArenaConfig} {arena : Arena} (geometry : Geometry)
    (h : Arena.create page config 0 false = .ok arena) :
    (Pump.new arena config.payloadCapacity geometry).Sound := by
  have hreachable : arena.Reachable := ⟨page, config, 0, false, arena, h, .refl⟩
  have hcreate := h
  rw [Arena.create] at hcreate
  obtain ⟨⟨layout, book⟩, hprepare, hcreate⟩ := of_bind_ok hcreate
  cases hcreate
  refine ⟨hreachable, rfl, ⟨rfl, fun _ => ⟨rfl, ?_, rfl⟩, by rintro _ _ ⟨⟩⟩, ?_,
    List.Pairwise.nil, fun _ _ h0 => absurd h0 List.not_mem_nil⟩
  · show layout.payloadCapacity = config.payloadCapacity
    rw [Arena.prepare] at hprepare
    split_ifs at hprepare
    obtain ⟨layout', hlayout, hprepare⟩ := of_bind_ok hprepare
    obtain ⟨controlLen, -, hprepare⟩ := of_bind_ok hprepare
    split_ifs at hprepare
    split at hprepare
    · cases hprepare
      exact (Ledger.layout_of_new hlayout).2.2.1
    · cases hprepare
  · intro before c after heq
    exact absurd heq (by simp [Pump.new])

end Pump

/-- **The source never trips its own arena.** In every run of the pump, over all frames,
geometries and answers, beside everything that others do in the arena but reconfigure it:

* it asks for a replacement only when none is pending, advances one only when one is pending,
  and publishes only frames that fit the installed allocation and have the size it is for;
* outside of a reconfiguration of its own the capacity it remembers is that of the installed
  allocation, and it remembers a replacement exactly when one is pending;
* the revisions that it passes to `set_geometry` increase strictly;
* it never takes a replacement that it has not asked for. -/
theorem arena_never_tripped {page : ℕ} {config : ArenaConfig} {arena : Arena} {geometry : Geometry}
    {p : Pump} (h : Arena.create page config 0 false = .ok arena)
    (hrun : Reaches Pump.step Always (Pump.new arena config.payloadCapacity geometry) p) :
    AllFine p.calls ∧
    (p.pc = .turn ∨ (∃ reported, p.pc = .reported reported) ∨ (∃ frame, p.pc = .publishing frame) →
      (p.arena.producer.resources ≠ none → p.capacity = p.arena.layout.payloadCapacity) ∧
      (p.pending.isSome ↔ p.arena.producer.pendingLayout.isSome)) ∧
    p.revisions.Pairwise (· < ·) ∧ p.pc ≠ .panicked := by
  have hsound : p.Sound :=
    hrun.invariant (.new geometry h) fun _ _ _ ha _ hs => ha.step hs
  refine ⟨hsound.fine, fun hpc => ?_, hsound.ordered.increasing, fun hpc => ?_⟩
  · have hsettled := hsound.settled hpc
    cases hpending : p.pending with
    | none =>
        obtain ⟨hnone, hcapacity, -⟩ := hsettled.installed hpending
        exact ⟨fun _ => hcapacity.symm, by rw [hnone]; rfl⟩
    | some asked =>
        obtain ⟨-, layout, hlayout, -⟩ := hsettled.pending asked.1 asked.2 hpending
        exact ⟨fun hinstalled => absurd (hsettled.uninstalled hsound.reachable.ledger hlayout)
          hinstalled, by rw [hlayout]; rfl⟩
  · have hmirrors := hsound.mirrors
    rw [hpc] at hmirrors
    exact hmirrors

/-- The producer's thread of the arena takes so many steps. -/
def ticking (n : ℕ) : List PumpLabel := List.replicate n (.arena (.producer {}))

/-- A producer delivers a small frame, which fits, and then a wider one. -/
def growing : List PumpLabel :=
  let accepts : Geometry → Bool := fun _ => true
  let inputSize : ℕ → ℕ → Option (F64 × F64) := fun width height =>
    some (⟨width.toUInt64⟩, ⟨height.toUInt64⟩)
  [PumpLabel.report (.ok none) accepts, .frame (.ok (some ⟨{ width := 1 }, [7]⟩)) inputSize] ++
    ticking 14 ++ [PumpLabel.published true] ++
  [PumpLabel.report (.ok none) accepts, .frame (.ok (some ⟨{ width := 2 }, [7, 8, 9]⟩)) inputSize] ++
    ticking 40 ++ [PumpLabel.answer accepts true] ++ ticking 30 ++ [PumpLabel.published true]

/-- Two frames are published, the second one in a replacement made for it. -/
theorem arena_never_tripped_growing : ∃ p : Pump, AllFine p.calls ∧
    p.calls.map (fun c => (c.dims, c.capacity)) = [((1, 0, 0), 4), ((2, 0, 0), 4), ((2, 0, 0), 3)] ∧
    p.revisions = [2] ∧ p.capacity = 3 := by
  have hplay : (Arena.create 4096 Arena.pairConfig 0 false).toOption.map (fun arena =>
      let p := play Pump.step (Pump.new arena Arena.pairConfig.payloadCapacity ⟨1, .zero, .zero⟩)
        growing
      (p.calls.map (fun c => (c.dims, c.capacity)), p.revisions, p.capacity)) =
        some ([((1, 0, 0), 4), ((2, 0, 0), 4), ((2, 0, 0), 3)], [2], 3) := by
    decide +kernel
  obtain ⟨arena, harena, hplay⟩ := Option.map_eq_some_iff.mp hplay
  simp only [Prod.mk.injEq] at hplay
  obtain ⟨hcalls, hrevisions, hcapacity⟩ := hplay
  have hcreate : Arena.create 4096 Arena.pairConfig 0 false = .ok arena := by
    cases hc : Arena.create 4096 Arena.pairConfig 0 false with
    | error e =>
        rw [hc] at harena
        cases harena
    | ok arena' =>
        rw [hc] at harena
        cases harena
        rfl
  exact ⟨_, (arena_never_tripped hcreate (.of_play Pump.step _ growing)).1, hcalls, hrevisions,
    hcapacity⟩

end Jackstay.Toolkit
