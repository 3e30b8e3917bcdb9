import Jackstay.Acquisition.Arena.Producer
import Jackstay.Video.NativeTrack

/-!
`native/arena.rs`: a native producer whose surfaces are the resources of an arena.

`publish` numbers the frame and lets the arena look for a slot; the callback of the scan asks
the backend for the surface of the slot, stages the frame, and signals the fence. A frame for
which there is no slot is dropped and counted. Any error ends the producer: it stops the arena
and publishes nothing more. `reconfigure` retires the pool together with its allocation, and
publication pauses until there is room for the next pool.

The producer calls the arena, whose steps are interleaved with those of the consumers. The
backend may answer whatever it likes, call by call. A pool is its id. The handles of a grant
and what the backend exports are left out.

`staged` and `destroyed` are history variables: the calls of `stage_frame`, and the retired
pools that were dropped.

* `NativeArenaProducer.prepare`: the callback of the scan.
* `NativeArenaProducer.step`: one step of the producer, of its arena, or of a consumer.
-/

namespace Jackstay.Native

open Acquisition Video

/-- `RetiredNativePool`, with the allocation that it was retired with. -/
structure RetiredNativePool where
  generation : ℕ
  pool : Option ℕ
  submitted : ℕ
  deriving DecidableEq, Repr

/-- The call of the producer that waits for its arena. -/
inductive NativeCall (F : Type) where
  | idle
  | publishing (frame : F) (timestampNs ready : ℕ) (hint : Option ℕ)
  /-- `stop` of the arena, after a failed `publish` -/
  | faulting
  | reconfiguring (params : NativeStreamParams) (bound : ℕ)
  | advancing
  | shutdown
  /-- a call that is passed on -/
  | passed
  | panicked

/-- A call of `stage_frame`: the pool, the slot, the frame, and the fence value that the frame
is to have. -/
structure StagedFrame (F : Type) where
  pool : ℕ
  slot : ℕ
  frame : F
  fenceValue : ℕ

/-- What a backend answers to the callback of one slot. -/
structure SlotAnswers where
  /-- `claim_reusable_slot` -/
  claim : Except Unit SlotClaim
  /-- `stage_frame` -/
  stage : Except Unit Unit := .ok ()
  /-- `signal_fence` -/
  signal : Except Unit Unit := .ok ()
  hostTimeNs : ℕ := 0

/-- `NativeArenaProducer`. -/
structure NativeArenaProducer (F : Type) where
  arena : Arena
  backend : Backend
  pool : Option ℕ
  params : NativeStreamParams
  pendingParams : Option (NativeStreamParams × ℕ) := none
  generation : ℕ := 1
  submitted : List ℕ
  sequence : ℕ := 0
  fenceValue : ℕ := 0
  dropped : ℕ := 0
  pendingDrops : ℕ := 0
  faulted : Bool := false
  stopped : Bool := false
  call : NativeCall F := .idle
  /-- what the last call has returned -/
  result : Outcome := .done
  /-- the pool that `advance_with_allocation` has allocated -/
  allocated : Option ℕ := none
  /-- the native pools of the retired allocations -/
  retired : List RetiredNativePool := []
  staged : List (StagedFrame F) := []
  destroyed : List RetiredNativePool := []

namespace NativeArenaProducer

variable {F : Type}

/-- `from_allocated_parts`. -/
def fromAllocatedParts (page : ℕ) (backend : Backend) (pool : ℕ) (params : NativeStreamParams)
    (config : ArenaConfig) (handles : Except ArenaError ℕ) (poolBytes : Except ArenaError ℕ) :
    Except ArenaError (NativeArenaProducer F) :=
  if config.payloadCapacity ≠ 0 then .error (.configuration "native arena has no inline payload")
  else do
    let count ← handles
    if count ≠ config.resourceCapacity.toNat then
      .error (.configuration "native pool capacity differs from arena capacity")
    else
      let bytes ← poolBytes
      let arena ← Arena.create page config bytes true
      return {
        arena, backend, params
        pool := some pool
        submitted := List.replicate config.resourceCapacity.toNat 0 }

/-- The descriptor of a frame in this slot. -/
def descriptor (p : NativeArenaProducer F) (pool slot timestampNs : ℕ) : FrameDescriptor :=
  { sequence := p.sequence
    timestampNs
    configGeneration := p.generation
    poolId := pool
    slotId := slot
    width := p.params.width
    height := p.params.height
    pixelFormat := p.params.pixelFormat
    colorSpace := p.params.colorSpace
    payloadKind := p.backend.payloadKind
    modifier := p.params.modifier
    syncKind := 3
    fenceId := p.backend.fenceId
    fenceValue := p.fenceValue
    damageKind := 1
    damageBaseSequence := p.sequence
    droppedBeforePublish := p.pendingDrops
    producerDropCount := p.dropped }

/-- `stage_frame` is called. -/
def stage (p : NativeArenaProducer F) (pool slot : ℕ) (frame : F) : NativeArenaProducer F :=
  { p with staged := p.staged ++ [⟨pool, slot, frame, p.fenceValue + 1⟩] }

/-- The fence value of a staged frame. -/
def submit (p : NativeArenaProducer F) (slot : ℕ) : NativeArenaProducer F :=
  { p with
    fenceValue := p.fenceValue + 1
    submitted := p.submitted.set slot (p.fenceValue + 1) }

/-- The callback of `publish_frame`, and what it answers to the scan. -/
def prepare (p : NativeArenaProducer F) (frame : F) (timestampNs ready : ℕ) (hint : Option ℕ)
    (pool slot : ℕ) (a : SlotAnswers) : NativeArenaProducer F × Env :=
  if hint.any (· != slot) ∨ ready < p.submitted.getD slot 0 then (p, { skip := true })
  else match a.claim with
    | .error _ => (p, { fail := true })
    | .ok .wouldBlock => (p, { skip := true })
    | .ok (.ready slotId) =>
        -- the backend has selected an unclaimed native slot
        if slotId ≠ slot then (p, { fail := true })
        else
          let p := p.stage pool slot frame
          match a.stage with
          | .error _ => (p, { fail := true })
          | .ok () =>
              if 2 ^ 64 ≤ p.fenceValue + 1 then (p, { fail := true })
              else
                let p := p.submit slot
                match a.signal with
                | .error _ => (p, { fail := true })
                | .ok () =>
                    (p, { descriptor := p.descriptor pool slot timestampNs
                          value := a.hostTimeNs })

/-- A call on the arena begins. -/
def calls (p : NativeArenaProducer F) (op : Arena.Op) (call : NativeCall F) :
    Option (NativeArenaProducer F) :=
  (p.arena.step (.call op)).map fun arena => { p with arena, call }

/-- `publish` has failed. -/
def fault (p : NativeArenaProducer F) (e : ArenaError) : Option (NativeArenaProducer F) :=
  { p with faulted := true, result := .error e }.calls .stop .faulting

/-- `publish`, up to the scan of the arena. -/
def publish (p : NativeArenaProducer F) (frame : F) (timestampNs : ℕ)
    (completed : Except Unit ℕ) (hint : Option ℕ) : Option (NativeArenaProducer F) :=
  if p.faulted ∨ p.stopped then some { p with result := .error .closed }
  else if 2 ^ 64 ≤ p.sequence + 1 then p.fault .generationsExhausted
  else
    let p := { p with sequence := p.sequence + 1 }
    match completed with
    | .error _ => p.fault .storage
    | .ok ready => p.calls (.publish .native) (.publishing frame timestampNs ready hint)

/-- `reconfigure`, up to the call on the arena. -/
def reconfigure (p : NativeArenaProducer F) (params : NativeStreamParams)
    (bound : Except Unit ℕ) (timeline : Except Unit Unit) : Option (NativeArenaProducer F) :=
  if p.faulted ∨ p.stopped then some { p with result := .error .closed }
  else if p.pendingParams.isSome then
    some { p with result := .error (.admission .reconfigurationPending) }
  else match bound, timeline with
    | .ok bound, .ok () => p.calls (.reconfigureNative bound) (.reconfiguring params bound)
    | _, _ => some { p with result := .error .storage }

/-- `advance_reconfiguration`, up to the call on the arena. -/
def advanceReconfiguration (p : NativeArenaProducer F) : Option (NativeArenaProducer F) :=
  if p.faulted ∨ p.stopped then some { p with result := .error .closed }
  else match p.pendingParams with
    | none => some { p with result := .ready p.generation }
    | some _ => p.calls .advanceReconfiguration .advancing

/-- `poll_shutdown_ready`, up to the call on the arena. -/
def pollShutdownReady (p : NativeArenaProducer F) : Option (NativeArenaProducer F) :=
  if p.faulted then some { p with result := .error .recoveryRequired }
  else if p.stopped = false then some { p with result := .shutdown false }
  else p.calls .pollShutdownReady .shutdown

/-- The calls that are passed on to the arena. -/
def passes : Arena.Op → Bool
  | .attach .. | .close _ | .pollCleanup | .configurationOffer _ | .registerReleaseTimeline _
  | .retryCleanup _ | .drop => true
  | _ => false

/-- What the producer does while the arena takes this step: the closure of
`begin_native_reconfiguration` gives up the pool, and the one that has been allocated takes its
place. -/
def follow (p : NativeArenaProducer F) : Pc → NativeArenaProducer F
  | .firstCursor _ =>
      match p.call with
      | .reconfiguring params bound =>
          { p with
            pool := none
            pendingParams := some (params, bound)
            retired := p.retired ++ [⟨p.arena.current, p.pool, p.fenceValue⟩] }
      | _ => p
  | .configure generation =>
      { p with
        pool := p.allocated
        params := (p.pendingParams.map (·.1)).getD p.params
        pendingParams := none
        submitted := List.replicate p.submitted.length 0
        generation
        allocated := none }
  | _ => p

/-- The call on the arena has returned. `completed` is what the fence has reached, for
`poll_shutdown_ready`. -/
def returns (p : NativeArenaProducer F) (completed : Except Unit ℕ) :
    Option (NativeArenaProducer F) :=
  let outcome := p.arena.producer.outcome
  match p.call with
  | .publishing .. =>
      match outcome with
      | .error e => p.fault e
      | .dropped => some { p with
          dropped := saturatingSucc 64 p.dropped
          pendingDrops := saturatingSucc 32 p.pendingDrops
          call := .idle
          result := .dropped }
      | _ => some { p with pendingDrops := 0, call := .idle, result := outcome }
  | .faulting => some { p with call := .idle }
  | .shutdown =>
      some { p with
        call := .idle
        result := match outcome, completed with
          | .shutdown true, .ok value => .shutdown (p.fenceValue ≤ value)
          | .shutdown true, .error _ => .error .storage
          | _, _ => outcome }
  | .reconfiguring .. | .advancing | .passed => some { p with call := .idle, result := outcome }
  | .idle | .panicked => none

end NativeArenaProducer

/-- What may happen next to a native producer and its arena. -/
inductive NativeArenaLabel (F : Type) where
  | publish (frame : F) (timestampNs : ℕ) (completed : Except Unit ℕ) (hint : Option ℕ)
  | reconfigure (params : NativeStreamParams) (bound : Except Unit ℕ) (timeline : Except Unit Unit)
  | advanceReconfiguration
  | stop
  | pollShutdownReady
  /-- a call that is passed on -/
  | pass (op : Arena.Op)
  /-- the callback of the scan -/
  | prepare (answers : SlotAnswers)
  /-- what a retired pool's fence has reached -/
  | ready (completed : Except Unit ℕ)
  /-- the maps of a replacement, and the pool with its bytes -/
  | allocate (maps : Except Unit Unit) (pool : Except Unit (ℕ × ℕ))
  /-- another step of the arena's producer -/
  | arena (e : Env)
  /-- the call on the arena returns -/
  | returns (completed : Except Unit ℕ)
  /-- a step of a consumer -/
  | incarnation (i : ℕ) (l : IncLabel)

namespace NativeArenaProducer

variable {F : Type}

/-- The steps of the arena in which the producer has no part. -/
def alone : Pc → Bool
  | .prepare _ | .cleanup (.ready _) _ | .resume .advance => false
  | _ => true

/-- The arena asks whether a retired pool is ready. -/
def askReady (p : NativeArenaProducer F) (index : ℕ) (completed : Except Unit ℕ) :
    Option (NativeArenaProducer F) := do
  let r ← p.arena.producer.retired[index]?
  let native ← p.retired.find? (·.generation = r.generation)
  match completed with
  | .error _ =>
      let arena ← p.arena.step (.producer { fail := true })
      return { p with arena }
  | .ok value =>
      if value < native.submitted then
        let arena ← p.arena.step (.producer { skip := true })
        return { p with arena }
      else
        let arena ← p.arena.step (.producer {})
        return { p with
          arena
          retired := p.retired.filter (·.generation ≠ r.generation)
          destroyed := p.destroyed ++ [native] }

/-- The arena asks for the storage of a replacement. -/
def askAllocation (p : NativeArenaProducer F) (maps : Except Unit Unit)
    (pool : Except Unit (ℕ × ℕ)) : Option (NativeArenaProducer F) :=
  let e : Env := match maps, pool with
    | .error _, _ => { fail := true }
    | .ok (), .error _ => { broken := true }
    | .ok (), .ok (_, bytes) => { value := bytes }
  (p.arena.step (.producer e)).map fun arena =>
    match arena.producer.pc, pool with
    | .configure _, .ok (pool, _) => { p with arena, allocated := some pool }
    | _, _ => { p with arena }

/-- The scan calls back for a slot. -/
def askPrepare (p : NativeArenaProducer F) (off : ℕ) (answers : SlotAnswers) :
    Option (NativeArenaProducer F) :=
  match p.call, p.pool with
  | .publishing frame timestampNs ready hint, some pool =>
      let (p, e) := p.prepare frame timestampNs ready hint pool (p.arena.scanIndex off) answers
      (p.arena.step (.producer e)).map fun arena => { p with arena }
  | .publishing .., none => some { p with call := .panicked }
  | _, _ => none

/-- **One step of a native producer and its arena.** -/
def step (p : NativeArenaProducer F) : NativeArenaLabel F → Option (NativeArenaProducer F)
  | .publish frame timestampNs completed hint =>
      match p.call with
      | .idle => p.publish frame timestampNs completed hint
      | _ => none
  | .reconfigure params bound timeline =>
      match p.call with
      | .idle => p.reconfigure params bound timeline
      | _ => none
  | .advanceReconfiguration =>
      match p.call with
      | .idle => p.advanceReconfiguration
      | _ => none
  | .stop =>
      match p.call with
      | .idle => { p with stopped := true }.calls .stop .passed
      | _ => none
  | .pollShutdownReady =>
      match p.call with
      | .idle => p.pollShutdownReady
      | _ => none
  | .pass op =>
      match p.call with
      | .idle => if passes op then p.calls op .passed else none
      | _ => none
  | .prepare answers =>
      match p.arena.producer.pc with
      | .prepare off => p.askPrepare off answers
      | _ => none
  | .ready completed =>
      match p.arena.producer.pc with
      | .cleanup (.ready index) _ => p.askReady index completed
      | _ => none
  | .allocate maps pool =>
      match p.arena.producer.pc with
      | .resume .advance => p.askAllocation maps pool
      | _ => none
  | .arena e =>
      if alone p.arena.producer.pc then
        (p.arena.step (.producer e)).map fun arena =>
          { p.follow p.arena.producer.pc with arena }
      else none
  | .returns completed =>
      match p.arena.producer.pc with
      | .idle => p.returns completed
      | _ => none
  | .incarnation i l => (p.arena.step (.incarnation i l)).map fun arena => { p with arena }

end NativeArenaProducer

end Jackstay.Native
