import Mathlib.Data.List.Nodup
import Jackstay.Audio.Ring

/-!
`handshake.rs` and `handshake/notices.rs`: tracks, selections and what is passed for them.

A host offers tracks; a consumer selects some of them, and the host admits or refuses each.
For what it admits the host passes objects: a channel for an input or an affordances track,
the channel of the notices, and in one more transfer the doorbell and the audio rings. The
host derives the transfers from its rings, the consumer from the kinds of the tracks.

The descriptor of a track is a byte string that both sides decode in the same way; `decode`
stands for it. A ring is named by a number: two handles of one ring are equal.

* `offerable`, `validOffer`: what a host may offer.
* `answerSelection`, `lateRefusal`: what it admits at once, and later.
* `sendRings`: the last transfer of the host; `Expected`: what the consumer takes it for.
* `Notices`, `Tracks`: the two ends once they are attached.
-/

namespace Jackstay.Handshake

/-! ### Tracks -/

/-- `Kind`. -/
inductive Kind where
  | video
  | input
  | affordances
  | playback
  | recording
  | other (name : String)
  deriving DecidableEq, Repr

namespace Kind

/-- `Kind::audio`. -/
def audio : Kind → Bool
  | .playback | .recording => true
  | _ => false

/-- `Kind::offerable`: a core kind, or a name of two labels or more. -/
def offerable : Kind → Bool
  | .other name =>
      name.toList.contains '.' && (name.toList.splitOn '.').all fun label =>
        !label.isEmpty && label.all fun c => c.isLower || c.isDigit || c == '-'
  | _ => true

/-- `late`: the other core kinds have channels that are fixed at admission. -/
def late : Kind → Bool
  | .video | .input | .affordances => false
  | _ => true

end Kind

/-- `Direction`. -/
inductive Direction where
  | fromSource
  | toSource
  | both
  deriving DecidableEq, Repr

/-- `Track`. -/
structure Track where
  id : ℕ
  kind : Kind
  direction : Direction
  label : String := ""
  descriptor : List UInt8 := []
  deriving DecidableEq, Repr

/-- `Playback`: a handle of a host to the ring of an audio track. -/
structure Playback where
  /-- which ring it is -/
  ring : ℕ
  id : ℕ
  recording : Bool
  blocks : ℕ
  payloadLen : ℕ
  deriving DecidableEq, Repr

/-- `Playback::fits`. -/
def Playback.fits (p : Playback) (d : Audio.Descriptor) : Bool :=
  ({ blocks := p.blocks, payloadLen := p.payloadLen } : Audio.Ring).fits d

/-- `Selected`. -/
structure Selected where
  id : ℕ
  required : Bool := false
  write : Bool := false
  deriving DecidableEq, Repr

/-- `Refusal`. -/
inductive Refusal where
  | unknown
  | unavailable
  | notWritable
  deriving DecidableEq, Repr

/-- `Admission`. -/
structure Admission where
  id : ℕ
  refusal : Option Refusal
  deriving DecidableEq, Repr

/-- `Notice`. -/
inductive Notice where
  | added (track : Track)
  | removed (id : ℕ)
  | updated (track : Track)
  deriving DecidableEq, Repr

/-- `Error`. A function that refuses its own arguments, before anything is exchanged,
returns `argument`; in the source that is a `Protocol` error too. -/
inductive Error where
  | io
  /-- a recording ring without an admitted writer -/
  | notFound
  | transfer
  | message
  | argument (text : String)
  | protocol (text : String)
  | refused (id : ℕ) (refusal : Refusal)
  | input
  | audio
  deriving DecidableEq, Repr

/-! ### What may be offered -/

section Offer

variable (decode : List UInt8 → Option Audio.Descriptor)

/-- The descriptor of the track fits the ring. -/
def Track.fits (t : Track) (p : Playback) : Bool :=
  match decode t.descriptor with
  | some d => p.fits d
  | none => false

/-- `offerable`. -/
def offerable (t : Track) (playback : List Playback) : Bool :=
  let recording := decide (t.kind = .recording)
  let ring := playback.find? fun p => p.id == t.id && p.recording == recording
  let direction := if recording then Direction.toSource else .fromSource
  t.kind.offerable && (!t.kind.audio || (t.direction == direction && ring.any (t.fits decode)))

/-- The checks of `accept` on its offer; the ids are distinct, and there is at most one
track of each kind that has a channel or the media stream. -/
def validOffer (offer : List Track) (playback : List Playback) : Bool :=
  decide ((offer.filter (·.kind.audio)).length ≤ 64) && decide (offer.map (·.id)).Nodup &&
    offer.all (offerable decode · playback) &&
    decide ((offer.map (·.kind)).filter fun k => !k.late).Nodup

end Offer

/-! ### Admission -/

/-- What the rings of recording tracks are to the others at the time: another incarnation
holds the writer, and there is memory for a new ring. -/
structure World where
  held : Playback → Bool := fun _ => false
  memory : Playback → Bool := fun _ => true

/-- `Playback::claim`. -/
def Playback.claim (p : Playback) (w : World) (leases : List Playback) : Bool :=
  p.recording && !(w.held p || leases.contains p) && w.memory p

/-- `claim`: the one writer of a recording track. -/
def claim (w : World) (id : ℕ) (write : Bool) (playback leases : List Playback) :
    Option Refusal × List Playback :=
  match playback.find? (·.id == id) with
  | some p => if write && p.claim w leases then (none, leases ++ [p])
      else (some .unavailable, leases)
  | none => (some .unavailable, leases)

/-- The answer of `accept` to a selected track. -/
def refusal (w : World) (offer : List Track) (target : Bool) (playback leases : List Playback)
    (s : Selected) : Option Refusal × List Playback :=
  match offer.find? (·.id == s.id) with
  | none => (some .unknown, leases)
  | some t =>
      if s.write = true ∧ t.direction = .fromSource then (some .notWritable, leases)
      else if t.kind = .input ∧ (s.write = false ∨ target = false) then (some .unavailable, leases)
      else if t.kind = .recording then claim w t.id s.write playback leases
      else (none, leases)

/-- The answers of `accept`, in selection order, with the leases that are taken. -/
def answerSelection (w : World) (offer : List Track) (target : Bool) (playback : List Playback) :
    List Selected → List Playback → List Admission × List Playback
  | [], leases => ([], leases)
  | s :: selection, leases =>
      let x := refusal w offer target playback leases s
      let rest := answerSelection w offer target playback selection x.2
      (⟨s.id, x.1⟩ :: rest.1, rest.2)

/-- A selection that is no longer than the offer, and names each track once. -/
def validSelection (offer : List Track) (selection : List Selected) : Bool :=
  decide (selection.length ≤ offer.length) && decide (selection.map (·.id)).Nodup

/-- The first required track that was refused. -/
def refused (selection : List Selected) (admissions : List Admission) : Option (ℕ × Refusal) :=
  ((selection.zip admissions).find? fun x => x.1.required && x.2.refusal.isSome).bind fun x =>
    x.2.refusal.map fun r => (x.2.id, r)

/-- `video_position`. -/
def videoPosition (offer : List Track) (admissions : List Admission) : Option ℕ :=
  admissions.findIdx? fun a =>
    a.refusal.isNone && offer.any fun t => t.id == a.id && t.kind == .video

/-- `audio_tracks`: the selection positions of the admitted audio tracks. -/
def audioTracks (tracks : List Track) (admissions : List Admission) : List (ℕ × Track) :=
  (admissions.zipIdx.filter fun x => x.1.refusal.isNone).filterMap fun x =>
    (tracks.find? fun t => t.id == x.1.id && t.kind.audio).map fun t => (x.2, t)

/-- `channel_kinds`: the kinds of the admitted tracks that have a channel. -/
def channelKinds (offer : List Track) (admissions : List Admission) : List Kind :=
  (((admissions.filter fun a => a.refusal.isNone).filterMap fun a =>
    offer.find? fun t => t.id == a.id).map (·.kind)).filter fun k =>
      k == .input || k == .affordances

/-! ### Transfers -/

/-- What is passed beside the messages. -/
inductive Object where
  | channel (kind : Kind)
  | tracks
  | page
  | wake
  | ring (of : Playback)
  deriving DecidableEq, Repr

/-- What an object is for. -/
inductive Role where
  | channel (kind : Kind)
  | tracks
  | page
  | wake
  | ring (id : ℕ) (writable : Bool)
  deriving DecidableEq, Repr

/-- The meaning of an object: a recording ring is passed with write access. -/
def Object.role : Object → Role
  | .channel kind => .channel kind
  | .tracks => .tracks
  | .page => .page
  | .wake => .wake
  | .ring p => .ring p.id p.recording

/-- The object is the end of a channel. -/
def Object.isChannel : Object → Bool
  | .channel _ | .tracks => true
  | _ => false

/-- `Playback::fd`: a recording ring is the one of its admitted writer. -/
def Playback.fd (p : Playback) (w : World) (leases : List Playback) : Bool :=
  !p.recording || w.held p || leases.contains p

/-- `send_rings`: there is a doorbell afterwards, and the objects, if each ring has one. -/
def sendRings (w : World) (leases : List Playback) (bell video : Bool) (rings : List Playback) :
    Option (Bool × List Object) :=
  let new := !bell && (video || rings.any fun p => !p.recording)
  if rings.all (·.fd w leases) then
    some (bell || new, (if new then [.page, .wake] else []) ++ rings.map .ring)
  else none

/-- What `receive_rings` waits for: a doorbell, and the rings of these tracks. -/
structure Expected where
  bell : Bool
  tracks : List Track
  deriving DecidableEq, Repr

/-- `receive_rings`, up to the transfer. -/
def expect (doorbell video : Bool) (tracks : List Track) : Expected :=
  { bell := !doorbell && (video || tracks.any fun t => t.kind == .playback), tracks }

/-- What the consumer takes the objects for. -/
def Expected.roles (e : Expected) : List Role :=
  (if e.bell then [.page, .wake] else []) ++
    e.tracks.map fun t => .ring t.id (t.kind == .recording)

/-- A ring that the consumer has mapped. -/
structure Mapped where
  id : ℕ
  writable : Bool
  descriptor : Audio.Descriptor
  ring : Playback
  deriving DecidableEq, Repr

/-- `PlaybackRing::map` and `RecordingWriter::map`. -/
def mapRing (decode : List UInt8 → Option Audio.Descriptor) (t : Track) (o : Object) :
    Except Error Mapped :=
  let writable := t.kind == .recording
  match decode t.descriptor, o with
  | some d, .ring p =>
      if p.fits d && (!writable || p.recording) then .ok ⟨t.id, writable, d, p⟩
      else .error .audio
  | _, _ => .error .audio

/-- `receive_rings`, with the objects of the transfer. -/
def receiveRings (decode : List UInt8 → Option Audio.Descriptor) (e : Expected)
    (objects : List Object) : Except Error (List Mapped) :=
  if e.roles.length < objects.length then .error .transfer
  else if objects.length < e.roles.length then .error (.protocol "missing descriptors")
  else (e.tracks.zip (objects.drop (if e.bell then 2 else 0))).mapM fun x =>
    mapRing decode x.1 x.2

/-! ### The two ends of the channel of the notices -/

/-- `Notices`, without its stream. -/
structure Notices where
  tracks : List Track := []
  playback : List Playback := []
  offered : List ℕ := []
  admitted : List ℕ := []
  positions : ℕ := 0
  bell : Bool := false
  leases : List Playback := []
  deriving DecidableEq, Repr

/-- The place of a track in a list. -/
def indexOf (tracks : List Track) (id : ℕ) : Option ℕ := tracks.findIdx? fun t => t.id == id

namespace Notices

/-- `Notices::find`. -/
def find (n : Notices) (id : ℕ) : Option ℕ :=
  (indexOf n.tracks id).filter fun i => (n.tracks[i]?).any fun t => t.kind.late

/-- `Notices::add`, up to the notice. -/
def add (decode : List UInt8 → Option Audio.Descriptor) (n : Notices) (track : Track)
    (ring : Option Playback) : Except Error (Notices × Notice) :=
  if track.kind.late = false ∨ track.kind.audio = ring.isNone ∨
      offerable decode track ring.toList = false ∨ n.offered.contains track.id = true then
    .error (.argument "invalid track")
  else .ok ({ n with
    offered := n.offered ++ [track.id]
    playback := n.playback ++ ring.toList
    tracks := n.tracks ++ [track] }, .added track)

/-- `Notices::update`, up to the notice. -/
def update (decode : List UInt8 → Option Audio.Descriptor) (n : Notices) (track : Track) :
    Except Error (Notices × Notice) :=
  match n.find track.id with
  | none => .error (.argument "unknown track")
  | some i =>
      if (n.tracks[i]?).all (fun t => t.kind != track.kind) ∨
          offerable decode track n.playback = false then .error (.argument "invalid track")
      else .ok ({ n with tracks := n.tracks.set i track }, .updated track)

/-- `Notices::remove`, up to the notice. -/
def remove (n : Notices) (id : ℕ) : Except Error (Notices × Notice) :=
  match n.find id with
  | none => .error (.argument "unknown track")
  | some i => .ok ({ n with
      tracks := n.tracks.eraseIdx i
      playback := n.playback.filter fun p => p.id != id
      admitted := n.admitted.filter fun other => other != id
      leases := n.leases.filter fun p => p.id != id }, .removed id)

/-- The answer of `Notices::serve` to a selected track. -/
def lateRefusal (w : World) (n : Notices) (s : Selected) : Option Refusal × List Playback :=
  match n.tracks.find? (·.id == s.id) with
  | none => (some .unknown, n.leases)
  | some t =>
      if s.write = true ∧ t.direction = .fromSource then (some .notWritable, n.leases)
      else if t.kind.late = false ∨ n.admitted.contains s.id = true then
        (some .unavailable, n.leases)
      else if t.kind = .recording then claim w s.id s.write n.playback n.leases
      else (none, n.leases)

/-- `Notices::serve`, from the selection to its answer. -/
def serve (w : World) (n : Notices) (s : Selected) : Notices × Option Refusal :=
  let x := n.lateRefusal w s
  ({ n with
    leases := x.2
    positions := n.positions + 1
    admitted := if x.1.isNone then n.admitted ++ [s.id] else n.admitted }, x.1)

end Notices

/-- `Tracks`, without its stream. -/
structure Tracks where
  tracks : List Track
  positions : ℕ
  doorbell : Bool
  pending : List Notice := []
  deriving DecidableEq, Repr

/-- What a notice makes of a list of tracks; not every notice matches. -/
def Notice.apply (notice : Notice) (tracks : List Track) : Option (List Track) :=
  match notice with
  | .added track => if (indexOf tracks track.id).isNone then some (tracks ++ [track]) else none
  | .updated track => (indexOf tracks track.id).map fun i => tracks.set i track
  | .removed id => (indexOf tracks id).map fun i => tracks.eraseIdx i

/-- `Tracks::apply`. -/
def Tracks.apply (v : Tracks) (notice : Notice) : Except Error Tracks :=
  match notice.apply v.tracks with
  | some tracks => .ok { v with tracks, pending := v.pending ++ [notice] }
  | none => .error (.protocol "notice does not match the offer")

/-- The rings that `Tracks::select` waits for. -/
def Tracks.expects (v : Tracks) (id : ℕ) (refusal : Option Refusal) : Expected :=
  expect v.doorbell false
    (if refusal.isNone then v.tracks.filter fun t => t.id == id && t.kind.audio else [])

end Jackstay.Handshake
