import Jackstay.Handshake.Tracks
import Jackstay.Library.Transition

/-!
`handshake.rs` and `handshake/notices.rs`: a host and a consumer, from the offer on.

The handshake runs on the media stream, the notices and late selections on a channel of
their own. Both are pairs of queues. A transfer of objects is acknowledged: the host goes
on when it has read the receipt. Every read and every write of a message or of a transfer
is a step, and either side may leave at any time, for an error of the system or a timeout.
A call that fails or times out is the last one on its handle (`jackstay_handshake.h`: any
failure ends the channel), so a late `select` or `next` that has given up leaves for good.

`log`, `answers`, `selections`, `exchanges`, `mapped`, `yielded` and `processed` are history
variables: the messages of the channel with the tracks of the host at the time, the late
selections with their positions, and what the consumer has made of what it received.

* `System.step`: one step of either side.
-/

namespace Jackstay.Handshake

/-- What the host sends: a message, or a transfer. -/
inductive Down where
  | offer (tracks : List Track)
  | admitted (admissions : List Admission)
  | notice (notice : Notice)
  | objects (objects : List Object)
  deriving DecidableEq, Repr

/-- What the consumer sends. -/
inductive Up where
  | selection (tracks : List Selected)
  | receipt
  deriving DecidableEq, Repr

/-- A stream between the two. -/
structure Link where
  down : List Down := []
  up : List Up := []
  deriving DecidableEq, Repr

/-- Where the host is. -/
inductive HostPc where
  /-- `accept` waits for the selection -/
  | selecting
  /-- channels are to be passed, and the rings after them -/
  | channels (todo : List Object)
  | channelReceipt (todo : List Object)
  | ringsReceipt
  /-- `accept` has returned -/
  | attached
  /-- `serve` has admitted a track -/
  | answering (id : ℕ)
  | answerReceipt
  | failed (error : Error)
  deriving DecidableEq, Repr

/-- The host. -/
structure Host where
  pc : HostPc := .selecting
  offer : List Track
  target : Bool
  admissions : List Admission := []
  notices : Notices
  /-- the late selections it has answered, with their positions -/
  answers : List (ℕ × ℕ) := []
  deriving DecidableEq, Repr

/-- Where the consumer is. -/
inductive ConsumerPc where
  | connecting
  | offered
  | selecting
  /-- channels are to be received, and the rings after them -/
  | channels (todo : List Role)
  | rings
  /-- the input channel, if any, is being connected -/
  | joining
  /-- `select` has returned -/
  | attached
  | lateSelecting (selected : Selected)
  | lateReceiving (selected : Selected)
  | failed (error : Error)
  deriving DecidableEq, Repr

/-- A transfer that was received: what it was taken for, and what it was. -/
structure Exchange where
  expected : List Role
  received : List Object
  deriving DecidableEq, Repr

/-- The consumer. -/
structure Consumer where
  pc : ConsumerPc := .connecting
  offer : List Track := []
  selection : List Selected := []
  admissions : List Admission := []
  doorbell : Bool := false
  view : Option Tracks := none
  exchanges : List Exchange := []
  mapped : List Mapped := []
  /-- what `next` has returned -/
  yielded : List Notice := []
  /-- the messages of the channel that have been read -/
  processed : ℕ := 0
  /-- the late selections, with their positions -/
  selections : List (ℕ × ℕ) := []
  deriving DecidableEq, Repr

/-- A host, a consumer and what is between them. -/
structure System where
  host : Host
  consumer : Consumer := {}
  media : Link := {}
  channel : Link := {}
  /-- what was sent on the channel, and the tracks of the host after it -/
  log : List (Down × List Track) := []
  deriving DecidableEq, Repr

/-- What may happen next. `sent` tells whether a notice could be encoded and written. -/
inductive SystemLabel where
  /-- the host reads the selection -/
  | readSelection (world : World)
  /-- the host passes what comes next -/
  | pass (world : World)
  | receipt
  | add (track : Track) (ring : Option Playback) (sent : Bool)
  | update (track : Track) (sent : Bool)
  | remove (id : ℕ) (sent : Bool)
  | serve (world : World)
  | hostLeaves
  | connect
  | select (selection : List Selected)
  /-- the consumer reads the admissions -/
  | admitted
  /-- the consumer receives a transfer -/
  | receive
  /-- the input channel is connected, or admission to it is denied -/
  | join (connected : Bool)
  | next
  | selectLate (selected : Selected)
  /-- `Tracks::select` reads a message -/
  | answered
  | consumerLeaves

namespace System

/-- The state once `accept` has checked and written its offer. -/
def accept (offer : List Track) (target : Bool) (playback : List Playback) : System where
  host := {
    offer, target
    notices := { tracks := offer, playback, offered := offer.map (·.id) } }
  media := { down := [.offer offer] }

/-! ### The host -/

def hostAt (s : System) (pc : HostPc) : System := { s with host := { s.host with pc } }

/-- A message on the channel. -/
def send (s : System) (message : Down) : System :=
  { s with
    channel := { s.channel with down := s.channel.down ++ [message] }
    log := s.log ++ [(message, s.host.notices.tracks)] }

/-- The channels that `accept` passes: input and affordances, and the one of the notices. -/
def channelObjects (offer : List Track) (admissions : List Admission) : List Object :=
  (channelKinds offer admissions).map .channel ++ [.tracks]

/-- `accept` answers a selection. -/
def onSelection (s : System) (w : World) (selection : List Selected) : System :=
  let h := s.host
  if validSelection h.offer selection = false then s.hostAt (.failed (.protocol "invalid selection"))
  else
    let x := answerSelection w h.offer h.target h.notices.playback selection []
    match refused selection x.1 with
    | some (id, r) =>
        { s with
          media := { s.media with down := s.media.down ++ [.admitted x.1] }
          host := { h with admissions := x.1, pc := .failed (.refused id r) } }
    | none =>
        if .input ∈ channelKinds h.offer x.1 ∧ h.target = false then
          s.hostAt (.failed (.protocol "input admitted without a target"))
        else { s with
          media := { s.media with down := s.media.down ++ [.admitted x.1] }
          host := { h with
            pc := .channels (channelObjects h.offer x.1)
            admissions := x.1
            notices := { h.notices with
              admitted := (x.1.filter fun a => a.refusal.isNone).map (·.id)
              positions := x.1.length
              leases := x.2 } } }

/-- The rings of the admitted audio tracks: the first of each id. -/
def admittedRings (h : Host) : List Playback :=
  (audioTracks h.offer h.admissions).filterMap fun x =>
    h.notices.playback.find? fun p => p.id == x.2.id

/-- The host passes a channel, or the rings of the handshake. -/
def passMedia (s : System) (w : World) : List Object → System
  | o :: todo =>
      { s with
        media := { s.media with down := s.media.down ++ [.objects [o]] }
        host := { s.host with pc := .channelReceipt todo } }
  | [] =>
      let video := (videoPosition s.host.offer s.host.admissions).isSome
      match sendRings w s.host.notices.leases false video (admittedRings s.host) with
      | none => s.hostAt (.failed .notFound)
      | some (bell, objects) =>
          let host := { s.host with notices := { s.host.notices with bell } }
          if objects = [] then { s with host := { host with pc := .attached } }
          else { s with
            media := { s.media with down := s.media.down ++ [.objects objects] }
            host := { host with pc := .ringsReceipt } }

/-- `serve` passes the rings of a track. -/
def passLate (s : System) (w : World) (id : ℕ) : System :=
  let n := s.host.notices
  match sendRings w n.leases n.bell false (n.playback.filter fun p => p.id == id) with
  | none => s.hostAt (.failed .notFound)
  | some (bell, objects) =>
      let s' := { s with host := { s.host with notices := { n with bell } } }
      if objects = [] then s'.hostAt .attached
      else (s'.send (.objects objects)).hostAt .answerReceipt

/-- The host reads an acknowledgement on the media stream. -/
def mediaReceipt (s : System) (pc : HostPc) : Option System :=
  match s.media.up with
  | [] => none
  | .receipt :: up => some ({ s with media := { s.media with up } }.hostAt pc)
  | .selection _ :: _ => some (s.hostAt (.failed (.protocol "channel descriptor not received")))

/-- `serve` reads an acknowledgement. -/
def channelReceipt (s : System) : Option System :=
  match s.channel.up with
  | [] => none
  | .receipt :: up => some ({ s with channel := { s.channel with up } }.hostAt .attached)
  | .selection _ :: _ => some (s.hostAt (.failed (.protocol "channel descriptor not received")))

/-- A notice, unless the arguments were refused. -/
def announce (s : System) (sent : Bool) : Except Error (Notices × Notice) → System
  | .error _ => s
  | .ok (notices, notice) =>
      let s' := { s with host := { s.host with notices } }
      if sent then s'.send (.notice notice) else s'

/-- `serve` reads a selection. -/
def onServe (s : System) (w : World) : Option System :=
  match s.channel.up with
  | [] => none
  | .selection [x] :: up =>
      let answer := s.host.notices.serve w x
      let s' := { s with
        channel := { s.channel with up }
        host := { s.host with
          notices := answer.1
          answers := s.host.answers ++ [(x.id, s.host.notices.positions)]
          pc := if answer.2.isNone then .answering x.id else .attached } }
      some (s'.send (.admitted [⟨x.id, answer.2⟩]))
  | .selection _ :: _ => some (s.hostAt (.failed (.protocol "invalid selection")))
  | .receipt :: _ => some (s.hostAt (.failed .message))

/-! ### The consumer -/

def consumerAt (s : System) (pc : ConsumerPc) : System :=
  { s with consumer := { s.consumer with pc } }

/-- `connect` reads the offer. -/
def onConnect (s : System) : Option System :=
  match s.media.down with
  | [] => none
  | .offer tracks :: down =>
      if (tracks.map (·.id)).Nodup then
        some { s with
          media := { s.media with down }
          consumer := { s.consumer with offer := tracks, pc := .offered } }
      else some (s.consumerAt (.failed (.protocol "duplicate track ID")))
  | _ :: _ => some (s.consumerAt (.failed .message))

/-- `Offered::select` sends a selection. -/
def onSelect (s : System) (selection : List Selected) : System :=
  if validSelection s.consumer.offer selection then
    { s with
      media := { s.media with up := s.media.up ++ [.selection selection] }
      consumer := { s.consumer with selection, pc := .selecting } }
  else s.consumerAt (.failed (.argument "invalid selection"))

/-- The channels that `Offered::select` waits for. -/
def channelRoles (offer : List Track) (admissions : List Admission) : List Role :=
  (channelKinds offer admissions).map .channel ++ [.tracks]

/-- `Offered::select` reads the admissions. -/
def onAdmitted (s : System) : Option System :=
  match s.media.down with
  | [] => none
  | .admitted admissions :: down =>
      let c := s.consumer
      if admissions.map (·.id) ≠ c.selection.map (·.id) then
        some (s.consumerAt (.failed (.protocol "admission does not answer the selection")))
      else match refused c.selection admissions with
      | some (id, r) => some (s.consumerAt (.failed (.refused id r)))
      | none =>
          some { s with
            media := { s.media with down }
            consumer := { c with admissions, pc := .channels (channelRoles c.offer admissions) } }
  | _ :: _ => some (s.consumerAt (.failed .message))

/-- What `Offered::select` waits for after the channels. -/
def mediaExpects (c : Consumer) : Expected :=
  expect false (videoPosition c.offer c.admissions).isSome
    ((audioTracks c.offer c.admissions).map (·.2))

/-- After the channels come the rings, if any. -/
def afterChannels (c : Consumer) : List Role → ConsumerPc
  | [] => if (mediaExpects c).roles = [] then .joining else .rings
  | todo => .channels todo

/-- `receive_channel`. -/
def receiveChannel (s : System) (role : Role) (todo : List Role) : Option System :=
  match s.media.down with
  | [] => none
  | .objects [o] :: down =>
      if o.isChannel then
        some { s with
          media := { down, up := s.media.up ++ [.receipt] }
          consumer := { s.consumer with
            exchanges := s.consumer.exchanges ++ [⟨[role], [o]⟩]
            pc := afterChannels s.consumer todo } }
      else some (s.consumerAt
        (.failed (.protocol "channel descriptor is not a connected Unix socket")))
  | _ :: _ => some (s.consumerAt (.failed .transfer))

/-- The rings are mapped. -/
def keep (c : Consumer) (e : Expected) (objects : List Object) (mapped : List Mapped) : Consumer :=
  { c with
    doorbell := c.doorbell || e.bell
    exchanges := c.exchanges ++ [⟨e.roles, objects⟩]
    mapped := c.mapped ++ mapped }

/-- `receive_rings` of `Offered::select`. -/
def receiveMedia (decode : List UInt8 → Option Audio.Descriptor) (s : System) : Option System :=
  match s.media.down with
  | [] => none
  | .objects objects :: down =>
      let e := mediaExpects s.consumer
      match receiveRings decode e objects with
      | .error error => some (s.consumerAt (.failed error))
      | .ok mapped =>
          some { s with
            media := { down, up := s.media.up ++ [.receipt] }
            consumer := { keep s.consumer e objects mapped with pc := .joining } }
  | _ :: _ => some (s.consumerAt (.failed .transfer))

/-- `Offered::select` returns. -/
def onJoin (s : System) (connected : Bool) : System :=
  let c := s.consumer
  if connected then { s with consumer := { c with
    view := some { tracks := c.offer, positions := c.selection.length, doorbell := c.doorbell }
    pc := .attached } }
  else s.consumerAt (.failed .input)

/-- A message of the channel has been read. -/
def readChannel (s : System) (down : List Down) (view : Tracks) : System :=
  { s with
    channel := { s.channel with down }
    consumer := { s.consumer with view := some view, processed := s.consumer.processed + 1 } }

/-- `Tracks::next` returns the first notice of its queue. -/
def yieldNext (s : System) (v : Tracks) : System :=
  match v.pending with
  | [] => s
  | n :: pending =>
      { s with consumer := { s.consumer with
        view := some { v with pending }
        yielded := s.consumer.yielded ++ [n] } }

/-- `Tracks::next`. -/
def onNext (s : System) (v : Tracks) : Option System :=
  if v.pending ≠ [] then some (s.yieldNext v)
  else match s.channel.down with
    | [] => none
    | .notice n :: down =>
        match v.apply n with
        | .ok v' => some ((s.readChannel down v').yieldNext v')
        | .error error => some (s.consumerAt (.failed error))
    | _ :: _ => some (s.consumerAt (.failed .message))

/-- `Tracks::select` sends its selection. -/
def onSelectLate (s : System) (v : Tracks) (x : Selected) : System :=
  { s with
    channel := { s.channel with up := s.channel.up ++ [.selection [x]] }
    consumer := { s.consumer with
      view := some { v with positions := v.positions + 1 }
      selections := s.consumer.selections ++ [(x.id, v.positions)]
      pc := .lateSelecting x } }

/-- `Tracks::select` reads a message. -/
def onAnswered (s : System) (v : Tracks) (x : Selected) : Option System :=
  match s.channel.down with
  | [] => none
  | .notice n :: down =>
      match v.apply n with
      | .ok v' => some (s.readChannel down v')
      | .error error => some (s.consumerAt (.failed error))
  | .admitted [a] :: down =>
      if a.id = x.id then
        some ((s.readChannel down v).consumerAt
          (if (v.expects x.id a.refusal).roles = [] then .attached else .lateReceiving x))
      else some (s.consumerAt (.failed (.protocol "admission does not answer the selection")))
  | .admitted _ :: _ =>
      some (s.consumerAt (.failed (.protocol "admission does not answer the selection")))
  | _ :: _ => some (s.consumerAt (.failed .message))

/-- `receive_rings` of `Tracks::select`. -/
def receiveLate (decode : List UInt8 → Option Audio.Descriptor) (s : System) (v : Tracks)
    (x : Selected) : Option System :=
  match s.channel.down with
  | [] => none
  | .objects objects :: down =>
      let e := v.expects x.id none
      match receiveRings decode e objects with
      | .error error => some (s.consumerAt (.failed error))
      | .ok mapped =>
          let v' := { v with doorbell := v.doorbell || e.bell }
          let s' : System := { s with
            channel := { s.channel with up := s.channel.up ++ [.receipt] }
            consumer := { keep s.consumer e objects mapped with pc := .attached } }
          some (s'.readChannel down v')
  | _ :: _ => some (s.consumerAt (.failed .transfer))

/-! ### Steps -/

/-- The host passes what comes next. -/
def onPass (s : System) (w : World) : Option System :=
  match s.host.pc with
  | .channels todo => some (s.passMedia w todo)
  | .answering id => some (s.passLate w id)
  | _ => none

/-- The host reads an acknowledgement. -/
def onReceipt (s : System) : Option System :=
  match s.host.pc with
  | .channelReceipt todo => s.mediaReceipt (.channels todo)
  | .ringsReceipt => s.mediaReceipt .attached
  | .answerReceipt => s.channelReceipt
  | _ => none

/-- The consumer receives a transfer. -/
def onReceive (decode : List UInt8 → Option Audio.Descriptor) (s : System) : Option System :=
  match s.consumer.pc, s.consumer.view with
  | .channels (role :: todo), _ => s.receiveChannel role todo
  | .rings, _ => s.receiveMedia decode
  | .lateReceiving x, some v => s.receiveLate decode v x
  | _, _ => none

/-- **One step of a host and a consumer.** -/
def step (decode : List UInt8 → Option Audio.Descriptor) (s : System) :
    SystemLabel → Option System
  | .readSelection w =>
      match s.host.pc, s.media.up with
      | .selecting, .selection selection :: up =>
          some ({ s with media := { s.media with up } }.onSelection w selection)
      | .selecting, .receipt :: _ => some (s.hostAt (.failed .message))
      | _, _ => none
  | .pass w => s.onPass w
  | .receipt => s.onReceipt
  | .add track ring sent =>
      if s.host.pc = .attached then some (s.announce sent (s.host.notices.add decode track ring))
      else none
  | .update track sent =>
      if s.host.pc = .attached then some (s.announce sent (s.host.notices.update decode track))
      else none
  | .remove id sent =>
      if s.host.pc = .attached then some (s.announce sent (s.host.notices.remove id)) else none
  | .serve w => if s.host.pc = .attached then s.onServe w else none
  | .hostLeaves =>
      match s.host.pc with
      | .failed _ => none
      | _ => some (s.hostAt (.failed .io))
  | .connect => if s.consumer.pc = .connecting then s.onConnect else none
  | .select selection => if s.consumer.pc = .offered then some (s.onSelect selection) else none
  | .admitted => if s.consumer.pc = .selecting then s.onAdmitted else none
  | .receive => s.onReceive decode
  | .join connected => if s.consumer.pc = .joining then some (s.onJoin connected) else none
  | .next =>
      match s.consumer.pc, s.consumer.view with
      | .attached, some v => s.onNext v
      | _, _ => none
  | .selectLate x =>
      match s.consumer.pc, s.consumer.view with
      | .attached, some v => some (s.onSelectLate v x)
      | _, _ => none
  | .answered =>
      match s.consumer.pc, s.consumer.view with
      | .lateSelecting x, some v => s.onAnswered v x
      | _, _ => none
  | .consumerLeaves =>
      match s.consumer.pc with
      | .failed _ => none
      | _ => some (s.consumerAt (.failed .io))

end System

end Jackstay.Handshake
