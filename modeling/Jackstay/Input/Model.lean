import Mathlib.Algebra.GroupWithZero.Nat
import Mathlib.Data.Finmap
import Mathlib.Data.Nat.Notation
import Mathlib.Tactic.Common

/-!
`input/model.rs`: modes, keys, events, geometry, configuration, outcomes, works and
statuses of shared input.

An `f64` is its 64 bits. The session only asks whether a value is finite and how two
values compare, and both are read off the bits as IEEE 754 has them. A `Duration` and
an `Instant` are a number of nanoseconds.
-/

namespace Jackstay.Input

/-! ### Numbers -/

/-- `f64`, by its bits. -/
structure F64 where
  bits : UInt64
  deriving DecidableEq, Repr

namespace F64

/-- The biased exponent. -/
def exponent (x : F64) : ℕ := x.bits.toNat / 2 ^ 52 % 2 ^ 11

/-- The bits without the sign. -/
def magnitude (x : F64) : ℕ := x.bits.toNat % 2 ^ 63

/-- `f64::is_finite`. -/
def isFinite (x : F64) : Bool := x.exponent != 2047

/-- `f64::is_nan`. -/
def isNan (x : F64) : Bool := x.exponent == 2047 && x.magnitude % 2 ^ 52 != 0

/-- Where the value stands in the order of the values that are not NaN; both zeros
stand at zero. -/
def rank (x : F64) : ℤ :=
  if x.bits.toNat < 2 ^ 63 then (x.magnitude : ℤ) else -(x.magnitude : ℤ)

/-- `<` of two `f64`. -/
def lt (x y : F64) : Bool := !x.isNan && !y.isNan && decide (x.rank < y.rank)

/-- `<=` of two `f64`. -/
def le (x y : F64) : Bool := !x.isNan && !y.isNan && decide (x.rank ≤ y.rank)

/-- `==` of two `f64`. -/
def eq (x y : F64) : Bool := !x.isNan && !y.isNan && decide (x.rank = y.rank)

/-- `0.0`. -/
def zero : F64 := ⟨0⟩

end F64

/-! ### Events -/

/-- `Mode`. -/
inductive Mode where
  | physical
  | sourceText
  | cooperative
  deriving DecidableEq, Repr

/-- `Mode::bit`. -/
def Mode.bit : Mode → UInt32
  | .physical => 1
  | .sourceText => 2
  | .cooperative => 4

/-- `Action`. -/
inductive Action where
  | down
  | up
  | repeat
  deriving DecidableEq, Repr

/-- `Key`. -/
inductive Key where
  | physical (name : String)
  | logical (name : String)
  deriving DecidableEq, Repr

/-- The name of a key. -/
def Key.name : Key → String
  | .physical n => n
  | .logical n => n

/-- `ScrollUnit`. -/
inductive ScrollUnit where
  | pixel
  | line
  | page
  deriving DecidableEq, Repr

/-- `ScrollPhase`: the physical gesture. -/
inductive ScrollPhase where
  | none
  | mayBegin
  | began
  | stationary
  | changed
  | ended
  | cancelled
  deriving DecidableEq, Repr

/-- `MomentumPhase`. -/
inductive MomentumPhase where
  | none
  | began
  | changed
  | ended
  deriving DecidableEq, Repr

/-- `Position`. -/
structure Position where
  revision : UInt64
  x : F64
  y : F64
  deriving DecidableEq, Repr

/-- `Event`. -/
inductive Event where
  | key (press : UInt64) (action : Action) (key : Key) (modifiers : UInt32)
  | text (text : String)
  | motion (position : Position)
  | button (button : UInt32) (action : Action) (position : Position)
  | scroll (x y : F64) (unit : ScrollUnit) (phase : Option ScrollPhase)
      (momentumPhase : Option MomentumPhase) (invertedFromDevice : Option Bool)
      (position : Position)
  deriving DecidableEq, Repr

namespace Event

/-- `Event::bytes`. -/
def bytes : Event → ℕ
  | .text s => 112 + s.utf8ByteSize
  | .key _ _ k _ => 112 + k.name.utf8ByteSize
  | _ => 112

/-- `Event::pointer`. -/
def pointer : Event → Bool
  | .motion _ => true
  | .button .. => true
  | .scroll .. => true
  | _ => false

/-- The event is a motion. -/
def isMotion : Event → Bool
  | .motion _ => true
  | _ => false

/-- A scroll that begins a physical gesture. -/
def scrollStart : Event → Bool
  | .scroll _ _ _ phase _ _ _ => phase == some .mayBegin || phase == some .began
  | _ => false

/-- A scroll that continues a physical gesture or carries momentum. -/
def scrollContinuation : Event → Bool
  | .scroll _ _ _ phase momentumPhase _ _ =>
      phase == some .stationary || phase == some .changed || phase == some .ended ||
        phase == some .cancelled || momentumPhase == some .began ||
        momentumPhase == some .changed || momentumPhase == some .ended
  | _ => false

end Event

/-! ### Configuration -/

/-- `CAP_PHYSICAL` and its siblings. -/
def capPhysical : UInt32 := 1

@[inherit_doc capPhysical] def capLogical : UInt32 := 2

@[inherit_doc capPhysical] def capText : UInt32 := 4

@[inherit_doc capPhysical] def capPointer : UInt32 := 8

@[inherit_doc capPhysical] def capScroll : UInt32 := 16

@[inherit_doc capPhysical] def capAll : UInt32 := 31

/-- `Geometry`. -/
structure Geometry where
  revision : UInt64
  width : F64
  height : F64
  deriving DecidableEq, Repr

/-- `Geometry::valid`. -/
def Geometry.valid (g : Geometry) : Bool :=
  g.revision != 0 && g.width.isFinite && g.height.isFinite && F64.zero.lt g.width &&
    F64.zero.lt g.height

/-- `Config`, without the two flags that only describe the executor. -/
structure Config where
  modes : UInt32
  capabilities : UInt32
  maxEvents : ℕ
  maxBytes : ℕ
  maxTextBytes : ℕ
  /-- in nanoseconds -/
  idleTimeout : ℕ
  geometry : Geometry
  deriving DecidableEq, Repr

/-- `Config::default`. -/
def Config.default : Config where
  modes := 4
  capabilities := capAll
  maxEvents := 256
  maxBytes := 256 * 1024
  maxTextBytes := 16 * 1024
  idleTimeout := 5 * 10 ^ 9
  geometry := ⟨1, ⟨0x4074000000000000⟩, ⟨0x4066800000000000⟩⟩

/-! ### Results -/

/-- `Error`. -/
inductive Error where
  | invalid
  | unsupported
  | busy
  | closed
  | stale
  | overflow
  | cleanupFailed
  deriving DecidableEq, Repr

/-- `Outcome`. -/
inductive Outcome where
  | executed
  | rejected
  | unsupported
  | partially
  | uncertain
  deriving DecidableEq, Repr

/-- `Scope`. -/
inductive Scope where
  | all
  | pointer
  deriving DecidableEq, Repr

/-- `Reason`. -/
inductive Reason where
  | focus
  | geometry
  | disconnect
  | expired
  | overflow
  | execution
  deriving DecidableEq, Repr

/-- `Operation`. -/
inductive Operation where
  | event (event : Event)
  | cleanup (scope : Scope) (reason : Reason)
  deriving DecidableEq, Repr

/-- `Work`. -/
structure Work where
  mode : Mode
  id : UInt64
  controller : UInt64
  epoch : UInt64
  sequence : UInt64
  operation : Operation
  deriving DecidableEq, Repr

/-- `Status`. -/
inductive Status where
  | coalesced (count : UInt64)
  | completed (sequence : UInt64) (outcome : Outcome)
  | rejected (sequence : UInt64) (error : Error)
  | reset (epoch : UInt64) (geometry : Geometry)
  | closed (reason : Reason) (clean : Bool)
  deriving DecidableEq, Repr

/-- `u64::saturating_add`. -/
def saturatingAdd (a b : UInt64) : UInt64 := UInt64.ofNat (min (a.toNat + b.toNat) (2 ^ 64 - 1))

/-- `Status::merge_coalesced`: what the pending status becomes, if it takes the newer
one in. -/
def Status.mergeCoalesced : Status → Status → Option Status
  | .coalesced count, .coalesced delta => some (.coalesced (saturatingAdd count delta))
  | _, _ => none

end Jackstay.Input
