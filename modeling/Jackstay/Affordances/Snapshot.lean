import Jackstay.Affordances.Json
import Jackstay.Framing.Framed

/-!
`affordances.rs`: the snapshots and verbs of the semantic channel, how a snapshot
goes into a message, and the check that every snapshot passes on its way out and
again on its way in.

* `Snapshot.body`, `Snapshot.wire`: the message of a snapshot;
* `parseSnapshot`: checks a body and normalises what it does not know;
* `knownVerb`, `validateVerb`: the verbs and the schemas of their bodies.
-/

namespace Jackstay.Affordances

open Input (F64)

/-! ### The data -/

/-- `Domain`. -/
inductive Domain where
  | media
  | navigation
  | cursor
  | scroll
  | window
  | presentation
  deriving DecidableEq, Repr

/-- The number of a domain. -/
def Domain.index : Domain → ℕ
  | media => 1
  | navigation => 2
  | cursor => 3
  | scroll => 4
  | window => 5
  | presentation => 6

/-- `Domain::name`. -/
def Domain.name : Domain → String
  | media => "media"
  | navigation => "navigation"
  | cursor => "cursor"
  | scroll => "scroll"
  | window => "window"
  | presentation => "presentation"

/-- `Domain::parse`. -/
def Domain.parse : String → Option Domain
  | "media" => some media
  | "navigation" => some navigation
  | "cursor" => some cursor
  | "scroll" => some scroll
  | "window" => some window
  | "presentation" => some presentation
  | _ => none

/-- The domains that have verbs. -/
def Domain.hasVerbs : Domain → Bool
  | media | navigation | scroll => true
  | cursor | window | presentation => false

/-- `Size`. -/
structure Size where
  width : F64
  height : F64
  deriving DecidableEq

/-- `Artwork`. -/
inductive Artwork where
  | url (url : String)
  | icon (name : String)
  deriving DecidableEq

/-- `Media`. -/
structure Media where
  status : String
  position : Option F64
  rate : F64
  duration : Option F64
  title : Option String
  artwork : Option Artwork
  capabilities : OrderedMap String Bool

/-- `Navigation`. -/
structure Navigation where
  url : Option String
  title : Option String
  canGoBack : Bool
  canGoForward : Bool
  loading : Bool
  capabilities : OrderedMap String Bool

/-- `Axis`. -/
structure Axis where
  scrollable : Bool
  contentLength : F64
  viewportLength : F64
  position : F64

/-- `Scroll`. -/
structure Scroll where
  x : Axis
  y : Axis
  capabilities : OrderedMap String Bool

/-- `Window`. -/
structure Window where
  title : Option String
  requestedSize : Option Size
  ready : Bool

/-- `Presentation`. -/
structure Presentation where
  visible : Bool
  preferredSize : Option Size
  scale : F64
  focused : Bool

/-- `Snapshot`. -/
inductive Snapshot where
  | media (m : Media)
  | navigation (n : Navigation)
  | cursor (shape : String)
  | scroll (s : Scroll)
  | window (w : Window)
  | presentation (p : Presentation)
  | withdraw (d : Domain)

/-- `Verb`. -/
structure Verb where
  domain : Domain
  name : String
  body : Value

/-- `Snapshot::domain`. -/
def Snapshot.domain : Snapshot → Domain
  | media _ => .media
  | navigation _ => .navigation
  | cursor _ => .cursor
  | scroll _ => .scroll
  | window _ => .window
  | presentation _ => .presentation
  | withdraw d => d

/-- The errors of a channel. -/
inductive Error where
  /-- "malformed affordances message". -/
  | invalid
  /-- An error of `serde_json::from_value`. -/
  | json
  | brokenPipe
  | other (text : String)
  | wire (e : Framing.IoError)

/-! ### Into values -/

namespace Value

/-- `Size` in a value. -/
def ofSize (s : Size) : Value := object [("height", ofF64 s.height), ("width", ofF64 s.width)]

/-- `Artwork` in a value, under its tag. -/
def ofArtwork : Artwork → Value
  | .url url => object [("kind", string "url"), ("url", string url)]
  | .icon name => object [("kind", string "icon"), ("name", string name)]

/-- `Axis` in a value. -/
def ofAxis (a : Axis) : Value :=
  object [("content_length", ofF64 a.contentLength), ("position", ofF64 a.position),
    ("scrollable", bool a.scrollable), ("viewport_length", ofF64 a.viewportLength)]

/-- `Media` in a value. -/
def ofMedia (m : Media) : Value :=
  object [("artwork", ofOption ofArtwork m.artwork), ("capabilities", object (ofFlags m.capabilities)),
    ("duration", ofOption ofF64 m.duration), ("position", ofOption ofF64 m.position),
    ("rate", ofF64 m.rate), ("status", string m.status), ("title", ofOption string m.title)]

/-- `Navigation` in a value. -/
def ofNavigation (n : Navigation) : Value :=
  object [("can_go_back", bool n.canGoBack), ("can_go_forward", bool n.canGoForward),
    ("capabilities", object (ofFlags n.capabilities)), ("loading", bool n.loading),
    ("title", ofOption string n.title), ("url", ofOption string n.url)]

/-- `Scroll` in a value. -/
def ofScroll (s : Scroll) : Value :=
  object [("capabilities", object (ofFlags s.capabilities)), ("x", ofAxis s.x), ("y", ofAxis s.y)]

/-- `Window` in a value. -/
def ofWindow (w : Window) : Value :=
  object [("ready", bool w.ready), ("requested_size", ofOption ofSize w.requestedSize),
    ("title", ofOption string w.title)]

/-- `Presentation` in a value. -/
def ofPresentation (p : Presentation) : Value :=
  object [("focused", bool p.focused), ("preferred_size", ofOption ofSize p.preferredSize),
    ("scale", ofF64 p.scale), ("visible", bool p.visible)]

end Value

/-- `Snapshot::body`. -/
def Snapshot.body : Snapshot → Value
  | media m => .ofMedia m
  | navigation n => .ofNavigation n
  | cursor shape => .object [("shape", .string shape)]
  | scroll s => .ofScroll s
  | window w => .ofWindow w
  | presentation p => .ofPresentation p
  | withdraw _ => .null

/-- `Snapshot::wire`. -/
def Snapshot.wire (v : Snapshot) : Value :=
  .object [("body", v.body), ("domain", .string v.domain.name),
    ("domain_version", .number (.posInt 1)), ("kind", .string "snapshot"),
    ("version", .number (.posInt 1))]

/-! ### Out of values

`serde_json::from_value` at the types above. A member that is missing reads as null:
the types that take null (the options) take a missing member too, and the others refuse
both. A nested structure is only read after its members have been looked at, when it is
an object. -/

namespace Value

/-- `f64`. -/
def readF64 (v : Value) : Except Error F64 :=
  match v.asF64 with
  | some x => .ok x
  | none => .error .json

/-- `String`. -/
def readString (v : Value) : Except Error String :=
  match v.asStr with
  | some text => .ok text
  | none => .error .json

/-- `bool`. -/
def readBool (v : Value) : Except Error Bool :=
  match v.asBool with
  | some b => .ok b
  | none => .error .json

/-- `Option`. -/
def readOption {α : Type} (read : Value → Except Error α) (v : Value) : Except Error (Option α) :=
  if v.isNull then .ok none else (read v).map some

/-- `BTreeMap<String, bool>`. -/
def readFlags (v : Value) : Except Error (OrderedMap String Bool) :=
  match v.asObject.bind toFlags with
  | some flags => .ok flags
  | none => .error .json

/-- `Size`. -/
def readSize (v : Value) : Except Error Size := do
  let width ← (v.index "width").readF64
  let height ← (v.index "height").readF64
  return { width, height }

/-- `Artwork`. -/
def readArtwork (v : Value) : Except Error Artwork := do
  let kind ← (v.index "kind").readString
  if kind = "url" then
    let url ← (v.index "url").readString
    return .url url
  else if kind = "icon" then
    let name ← (v.index "name").readString
    return .icon name
  else throw .json

/-- `Axis`. -/
def readAxis (v : Value) : Except Error Axis := do
  let scrollable ← (v.index "scrollable").readBool
  let contentLength ← (v.index "content_length").readF64
  let viewportLength ← (v.index "viewport_length").readF64
  let position ← (v.index "position").readF64
  return { scrollable, contentLength, viewportLength, position }

/-- `Media`. -/
def readMedia (v : Value) : Except Error Media := do
  let status ← (v.index "status").readString
  let position ← (v.index "position").readOption readF64
  let rate ← (v.index "rate").readF64
  let duration ← (v.index "duration").readOption readF64
  let title ← (v.index "title").readOption readString
  let artwork ← (v.index "artwork").readOption readArtwork
  let capabilities ← (v.index "capabilities").readFlags
  return { status, position, rate, duration, title, artwork, capabilities }

/-- `Navigation`. -/
def readNavigation (v : Value) : Except Error Navigation := do
  let url ← (v.index "url").readOption readString
  let title ← (v.index "title").readOption readString
  let canGoBack ← (v.index "can_go_back").readBool
  let canGoForward ← (v.index "can_go_forward").readBool
  let loading ← (v.index "loading").readBool
  let capabilities ← (v.index "capabilities").readFlags
  return { url, title, canGoBack, canGoForward, loading, capabilities }

/-- `Scroll`. -/
def readScroll (v : Value) : Except Error Scroll := do
  let x ← (v.index "x").readAxis
  let y ← (v.index "y").readAxis
  let capabilities ← (v.index "capabilities").readFlags
  return { x, y, capabilities }

/-- `Window`. -/
def readWindow (v : Value) : Except Error Window := do
  let title ← (v.index "title").readOption readString
  let requestedSize ← (v.index "requested_size").readOption readSize
  let ready ← (v.index "ready").readBool
  return { title, requestedSize, ready }

/-- `Presentation`. -/
def readPresentation (v : Value) : Except Error Presentation := do
  let visible ← (v.index "visible").readBool
  let preferredSize ← (v.index "preferred_size").readOption readSize
  let scale ← (v.index "scale").readF64
  let focused ← (v.index "focused").readBool
  return { visible, preferredSize, scale, focused }

end Value

/-! ### Verbs -/

/-- `known_verb`. -/
def knownVerb (d : Domain) (name : String) : Bool :=
  match d with
  | .media =>
      ["play", "pause", "stop", "next", "previous", "seek_absolute", "seek_relative"].contains name
  | .navigation => ["back", "forward", "reload", "stop", "load"].contains name
  | .scroll => ["scroll_by_step", "set_position"].contains name
  | _ => false

/-- `as_str().ok_or_else(invalid)`. -/
def text (v : Value) : Except Error String :=
  match v.asStr with
  | some text => .ok text
  | none => .error .invalid

/-- `number`. -/
def number (v : Value) : Except Error F64 :=
  match v.asF64.filter F64.isFinite with
  | some x => .ok x
  | none => .error .invalid

/-- `if c { return Err(invalid()) }`. -/
def refuse (c : Prop) [Decidable c] : Except Error Unit := if c then .error .invalid else .ok ()

/-- `nonnegative`. -/
def nonnegative (v : Value) : Except Error Unit := do
  let x ← number v
  refuse (x.lt .zero)

/-- `validate_verb`. -/
def validateVerb (v : Verb) : Except Error Bool := do
  refuse (v.body.isObject = false)
  match v.domain with
  | .media =>
      if v.name = "seek_absolute" then do
        nonnegative (v.body.index "position")
        return true
      else if v.name = "seek_relative" then do
        let _ ← number (v.body.index "offset")
        return true
      else return true
  | .navigation =>
      if v.name = "load" then do
        let _ ← text (v.body.index "url")
        return true
      else return true
  | .scroll => do
      let axis ← text (v.body.index "axis")
      if ["x", "y"].contains axis = false then return false
      else if v.name = "set_position" then do
        let _ ← number (v.body.index "position")
        return true
      else do
        let step ← text (v.body.index "step")
        let direction ← text (v.body.index "direction")
        return ["small", "large"].contains step && ["decrement", "increment"].contains direction
  | _ => return true

/-! ### Checking a body -/

/-- `size`. -/
def size (v : Value) : Except Error Unit :=
  if v.isNull then .ok ()
  else do
    let width ← number (v.index "width")
    refuse (width.le .zero)
    let height ← number (v.index "height")
    refuse (height.le .zero)

/-- The members that a body needs: the options among them have to be there too. -/
def required : Domain → List String
  | .media => ["status", "position", "rate", "duration", "title", "artwork", "capabilities"]
  | .navigation => ["url", "title", "can_go_back", "can_go_forward", "loading", "capabilities"]
  | .cursor => ["shape"]
  | .scroll => ["x", "y", "capabilities"]
  | .window => ["title", "requested_size", "ready"]
  | .presentation => ["visible", "preferred_size", "scale", "focused"]

/-- `CURSORS`. -/
def cursors : List String :=
  ["auto", "default", "none", "context-menu", "help", "pointer", "progress", "wait", "cell",
    "crosshair", "text", "vertical-text", "alias", "copy", "move", "no-drop", "not-allowed", "grab",
    "grabbing", "e-resize", "n-resize", "ne-resize", "nw-resize", "s-resize", "se-resize",
    "sw-resize", "w-resize", "ew-resize", "ns-resize", "nesw-resize", "nwse-resize", "col-resize",
    "row-resize", "all-scroll", "zoom-in", "zoom-out"]

/-- The statuses that `parse_snapshot` knows. -/
def statuses : List String := ["playing", "paused", "stopped", "buffering", "unknown"]

/-- Only the capabilities that name a verb stay. -/
def retainKnown (d : Domain) (b : Value) : Except Error Value :=
  if d.hasVerbs then
    match (b.index "capabilities").asObject with
    | some members =>
        .ok (b.set "capabilities" (.object (members.filter fun m => knownVerb d m.1)))
    | none => .error .invalid
  else .ok b

/-- A time of `Media` that is there is not negative. -/
def checkTime (v : Value) : Except Error Unit := if v.isNull then .ok () else nonnegative v

/-- The position of `Media` is not beyond its duration. -/
def checkOrder (position duration : Value) : Except Error Unit :=
  if position.isNull || duration.isNull then .ok ()
  else do
    let p ← number position
    let d ← number duration
    refuse (d.lt p)

/-- A status that is not known becomes "unknown". -/
def normalStatus (b : Value) : Except Error Value := do
  let status ← text (b.index "status")
  return if statuses.contains status then b else b.set "status" (.string "unknown")

/-- Artwork of a kind that is not known becomes null. -/
def normalArtwork (b : Value) : Except Error Value :=
  if (b.index "artwork").isNull then .ok b
  else do
    let kind ← text ((b.index "artwork").index "kind")
    return if ["url", "icon"].contains kind then b else b.set "artwork" .null

/-- One axis of `Scroll`. -/
def checkAxis (a : Value) : Except Error Unit := do
  nonnegative (a.index "content_length")
  nonnegative (a.index "viewport_length")
  nonnegative (a.index "position")
  let p ← number (a.index "position")
  let content ← number (a.index "content_length")
  let viewport ← number (a.index "viewport_length")
  refuse (((content.sub viewport).max .zero).lt p ∨
    (a.index "scrollable").asBool = some false ∧ p.eq .zero = false)

/-- The arm of `parse_snapshot` for each domain. -/
def parseBody (d : Domain) (b : Value) : Except Error Snapshot :=
  match d with
  | .media => do
      checkTime (b.index "position")
      checkTime (b.index "duration")
      let _ ← number (b.index "rate")
      checkOrder (b.index "position") (b.index "duration")
      let b ← normalStatus b
      let b ← normalArtwork b
      let m ← b.readMedia
      return .media m
  | .navigation => do
      let n ← b.readNavigation
      return .navigation n
  | .cursor => do
      let shape ← text (b.index "shape")
      return .cursor (if cursors.contains shape then shape else "default")
  | .scroll => do
      checkAxis (b.index "x")
      checkAxis (b.index "y")
      let s ← b.readScroll
      return .scroll s
  | .window => do
      size (b.index "requested_size")
      let w ← b.readWindow
      return .window w
  | .presentation => do
      size (b.index "preferred_size")
      let scale ← number (b.index "scale")
      refuse (scale.le .zero)
      let p ← b.readPresentation
      return .presentation p

/-- `parse_snapshot`. -/
def parseSnapshot (d : Domain) (b : Value) : Except Error Snapshot :=
  if b.isNull then .ok (.withdraw d)
  else if b.isObject = false ∨ (required d).any fun k => (b.get k).isNone then .error .invalid
  else do
    let b ← retainKnown d b
    parseBody d b

end Jackstay.Affordances
