import Jackstay.Handshake.Transfers
import Jackstay.Handshake.Convergence

/-!
What is on its way between the two sides, and what is owed.

Where the host has under an id just the ring of its track, what it passes is what the
consumer waits for. `accept` passes the first ring of an id, and `serve` all of them.

* `Owned`: the condition on the rings of the host.
* `Media`, `Channel`: what is on its way, and what the host has still to pass, against what
  the consumer waits for, on the two streams.
* `Agreed`: the invariant.
* `SameMedia`, `SameChannel`: a step of the host that one of the streams does not notice.
-/

namespace Jackstay.Handshake

open Transition

variable {decode : List UInt8 → Option Audio.Descriptor} {base : List Track} {s s' : System}

/-- **The host has the rings of its tracks**: the first ring of each id that it admits in
the handshake is of the kind of the track, and the rings of an id that it admits later are
just the one of the track. The notices are sent. -/
def Owned (s : System) : SystemLabel → Prop
  | .readSelection w => ∀ selection up, s.media.up = .selection selection :: up →
      ∀ x ∈ audioTracks s.host.offer
          (answerSelection w s.host.offer s.host.target s.host.notices.playback selection []).1,
        x.2.FirstRing s.host.notices.playback
  | .serve w => ∀ x up, s.channel.up = .selection [x] :: up →
      (s.host.notices.lateRefusal w x).1 = none →
      ∀ t ∈ s.host.notices.tracks, t.id = x.id → t.OwnRings s.host.notices.playback
  | l => Sent s l

/-! ### What the host owes -/

/-- The host has gone. -/
def Host.Gone (h : Host) : Prop := ∃ e, h.pc = .failed e

/-- The last transfer of `accept`. -/
def owedRings (h : Host) : List Object :=
  ringObjects false (videoPosition h.offer h.admissions).isSome (System.admittedRings h)

/-- The transfers that `accept` has still to make. -/
def owed (h : Host) : List (List Object) :=
  match h.pc with
  | .channels todo | .channelReceipt todo =>
      todo.map ([·]) ++ if owedRings h = [] then [] else [owedRings h]
  | _ => []

/-- There is a doorbell, once the host has passed what it owes. -/
def owedBell (h : Host) : Bool :=
  match h.pc with
  | .channels _ | .channelReceipt _ =>
      false || newBell false (videoPosition h.offer h.admissions).isSome (System.admittedRings h)
  | .answering id => h.notices.bell ||
      newBell h.notices.bell false (h.notices.playback.filter fun p => p.id == id)
  | _ => h.notices.bell

/-- The transfer that `serve` has still to make. -/
def debt (h : Host) : List Object :=
  match h.pc with
  | .answering id => ringObjects h.notices.bell false (h.notices.playback.filter fun p => p.id == id)
  | _ => []

/-- The host has nothing to pass on the channel, and waits for nothing. -/
def Quiet (h : Host) : Prop := h.pc ≠ .answerReceipt ∧ debt h = []

/-- The written rings that the host is going to pass are its own. -/
def Claimed (h : Host) : HostPc → Prop
  | .channels _ | .channelReceipt _ =>
      ∀ p ∈ System.admittedRings h, p.recording = true → p ∈ h.notices.leases
  | .answering id => ∀ p ∈ h.notices.playback.filter (fun p => p.id == id),
      p.recording = true → p ∈ h.notices.leases
  | _ => True

/-- The host ends for a reason of its own. -/
def HostPc.Fair : HostPc → Prop
  | .failed e => e = .io ∨ ∃ id r, e = .refused id r
  | _ => True

/-- The consumer ends for a reason of its own. -/
def ConsumerPc.Fair : ConsumerPc → Prop
  | .failed e => e = .io ∨ e = .input ∨ e = .argument "invalid selection" ∨
      ∃ id r, e = .refused id r
  | _ => True

/-- The host has a ring for each of its audio tracks. -/
structure Stocked (decode : List UInt8 → Option Audio.Descriptor) (base : List Track) (h : Host) :
    Prop where
  offer : h.offer = base
  ids : (h.notices.tracks.map (·.id)).Nodup
  rings : ∀ t ∈ h.notices.tracks, t.kind.audio = true → ∃ p ∈ h.notices.playback, Owns decode t p
  valid : h.pc = .selecting → validOffer decode base h.notices.playback = true
  claimed : Claimed h h.pc
  bell : h.pc = .selecting → h.notices.bell = false
  fair : h.pc.Fair

/-! ### The media stream -/

/-- The transfers are these channels, followed by the rings. -/
def Meets (decode : List UInt8 → Option Audio.Descriptor) (transfers : List (List Object))
    (todo : List Role) (e : Expected) : Prop :=
  ∃ (channels : List Object) (rings : List (List Object)),
    transfers = channels.map ([·]) ++ rings ∧ channels.map Object.role = todo ∧
    (∀ o ∈ channels, o.isChannel = true) ∧
    (e.roles = [] ∧ rings = [] ∨ e.roles ≠ [] ∧ ∃ objects, rings = [objects] ∧
      Delivers decode e objects)

/-- What is on its way and what the host has still to pass is what the consumer waits for. -/
def Owes (decode : List UInt8 → Option Audio.Descriptor) (h : Host) (down : List Down)
    (todo : List Role) (e : Expected) : Prop :=
  h.pc ≠ .selecting ∧ ∃ transfers rest, down = transfers.map .objects ∧
    Meets decode (transfers ++ rest) todo e ∧ (h.Gone ∨ rest = owed h ∧ owedBell h = e.bell)

/-- What the consumer is going to wait for after these admissions. -/
def expectsOf (offer : List Track) (admissions : List Admission) : Expected :=
  expect false (videoPosition offer admissions).isSome ((audioTracks offer admissions).map (·.2))

/-- The handshake is over for the consumer. -/
def Through (s : System) (doorbell : Bool) : Prop :=
  s.host.pc ≠ .selecting ∧ s.media.down = [] ∧
    (s.host.Gone ∨ owed s.host = [] ∧ owedBell s.host = doorbell)

/-- **The media stream, where the consumer is at this point.** -/
def Media (decode : List UInt8 → Option Audio.Descriptor) (base : List Track) (s : System) :
    ConsumerPc → Prop
  | .connecting => s.media.down = [.offer base] ∧ (s.host.pc = .selecting ∨ s.host.Gone)
  | .offered => s.media.down = [] ∧ (s.host.pc = .selecting ∨ s.host.Gone)
  | .selecting => s.media.down = [] ∧ (s.host.pc = .selecting ∨ s.host.Gone) ∨
      s.host.pc ≠ .selecting ∧ ∃ admissions down, s.media.down = .admitted admissions :: down ∧
        admissions.map (·.id) = s.consumer.selection.map (·.id) ∧
        (refused s.consumer.selection admissions = none →
          Owes decode s.host down (System.channelRoles base admissions)
            (expectsOf base admissions))
  | .channels todo => Owes decode s.host s.media.down todo (System.mediaExpects s.consumer)
  | .rings => Owes decode s.host s.media.down [] (System.mediaExpects s.consumer) ∧
      (System.mediaExpects s.consumer).roles ≠ []
  | .joining => Through s s.consumer.doorbell
  | .attached | .lateSelecting _ | .lateReceiving _ => s.media.down = [] ∧
      (s.host.Gone ∨ owed s.host = []) ∧ s.host.pc ≠ .selecting
  | .failed _ => True

/-- What the consumer has sent on the media stream. -/
def MediaUp (base : List Track) (s : System) : Prop :=
  (s.host.pc = .selecting ∧ (s.media.up = [] ∨ s.media.up = [.selection s.consumer.selection] ∧
    validSelection base s.consumer.selection = true)) ∨ s.host.Gone ∨
  (s.host.pc ≠ .selecting ∧ ∀ u ∈ s.media.up, u = .receipt)

/-! ### The channel -/

/-- Only notices are on their way. -/
def Noted (down : List Down) : Prop := ∃ notices : List Notice, down = notices.map .notice

/-- The two sides agree whether there is a doorbell. -/
def Rung (h : Host) (doorbell : Bool) : Prop := h.Gone ∨ owedBell h = doorbell

/-- The consumer waits for nothing; this is what it has sent, and a receipt before it if the
host still waits for one. -/
def Idle (s : System) (doorbell : Bool) (up : List Up) : Prop :=
  Rung s.host doorbell ∧
    (Noted s.channel.down ∧ s.channel.up = up ∧ Quiet s.host ∨
      s.channel.down = [] ∧ s.channel.up = .receipt :: up ∧
        (s.host.pc = .answerReceipt ∨ s.host.Gone))

/-- The rest of an answer: the transfer is on its way, or is to be made, and no transfer where
none is waited for. -/
def Answers (decode : List UInt8 → Option Audio.Descriptor) (h : Host) (doorbell : Bool)
    (e : Expected) (down : List Down) : Prop :=
  (e.roles = [] ∧ Noted down ∧ Quiet h ∧ Rung h doorbell) ∨
  (e.roles ≠ [] ∧ down = [] ∧ h.pc ≠ .answerReceipt ∧
    (h.Gone ∨ Delivers decode e (debt h) ∧ owedBell h = (doorbell || e.bell))) ∨
  (e.roles ≠ [] ∧ ∃ objects, down = [.objects objects] ∧ Delivers decode e objects ∧
    (h.Gone ∨ h.pc = .answerReceipt ∧ owedBell h = (doorbell || e.bell)))

/-- Notices lead from one list of tracks to another. -/
def replay (tracks : List Track) : List Notice → Option (List Track)
  | [] => some tracks
  | n :: notices => (n.apply tracks).bind fun after => replay after notices

/-- What `Tracks::select` is going to wait for. -/
def lateExpects (doorbell : Bool) (tracks : List Track) (id : ℕ) (refusal : Option Refusal) :
    Expected :=
  expect doorbell false
    (if refusal.isNone then tracks.filter fun t => t.id == id && t.kind.audio else [])

/-- An answer is on its way, behind some notices. -/
def Answered (decode : List UInt8 → Option Audio.Descriptor) (s : System) (v : Tracks)
    (x : Selected) : Prop :=
  s.channel.up = [] ∧ ∃ notices refusal tracks down,
    s.channel.down = notices.map .notice ++ .admitted [⟨x.id, refusal⟩] :: down ∧
    replay v.tracks notices = some tracks ∧
    Answers decode s.host v.doorbell (lateExpects v.doorbell tracks x.id refusal) down

/-- **The channel, where the consumer is at this point.** -/
def Channel (decode : List UInt8 → Option Audio.Descriptor) (s : System) : ConsumerPc → Prop
  | .attached => ∃ v, s.consumer.view = some v ∧ Idle s v.doorbell []
  | .lateSelecting x => ∃ v, s.consumer.view = some v ∧
      (Idle s v.doorbell [.selection [x]] ∨ Answered decode s v x)
  | .lateReceiving x => ∃ v, s.consumer.view = some v ∧ s.channel.up = [] ∧
      (v.expects x.id none).roles ≠ [] ∧
      Answers decode s.host v.doorbell (v.expects x.id none) s.channel.down
  | .failed _ => True
  | _ => Noted s.channel.down ∧ s.channel.up = [] ∧ Quiet s.host

/-- At most one selection is on its way. -/
def Single (up : List Up) : Prop := up = [] ∨ ∃ x, up = [.selection [x]]

/-- What the consumer has sent on the channel: the host reads a receipt where it waits for
one, and only there. -/
def ChannelUp (s : System) : Prop :=
  s.host.Gone ∨
  (s.host.pc = .answerReceipt ∧ (s.channel.up = [] ∨
    ∃ up, s.channel.up = .receipt :: up ∧ Single up)) ∨
  (s.host.pc ≠ .answerReceipt ∧ Single s.channel.up ∧ (debt s.host ≠ [] → s.channel.up = []))

/-- **The invariant.** -/
structure Agreed (decode : List UInt8 → Option Audio.Descriptor) (base : List Track)
    (s : System) : Prop where
  converged : Converged base s
  stocked : Stocked decode base s.host
  media : Media decode base s s.consumer.pc
  mediaUp : MediaUp base s
  channel : Channel decode s s.consumer.pc
  channelUp : ChannelUp s
  exchanges : ∀ x ∈ s.consumer.exchanges, x.received.map Object.role = x.expected
  mapped : ∀ m ∈ s.consumer.mapped, m.Right
  fair : s.consumer.pc.Fair
  silent : s.consumer.pc.early = true → s.consumer.pc ≠ .joining → s.consumer.doorbell = false

/-! ### Steps of the host that one of the streams does not notice -/

variable {h h' : Host}

/-- The channel does not notice. -/
structure SameChannel (h h' : Host) : Prop where
  gone : h.Gone → h'.Gone
  bell : h'.Gone ∨ owedBell h' = owedBell h
  debt : h'.Gone ∨ debt h' = debt h
  receipt : h.pc = .answerReceipt → h'.pc = .answerReceipt ∨ h'.Gone
  receipt' : h'.pc = .answerReceipt → h.pc = .answerReceipt

/-- The media stream does not notice. -/
structure SameMedia (h h' : Host) : Prop where
  gone : h.Gone → h'.Gone
  bell : h'.Gone ∨ owedBell h' = owedBell h
  owes : h'.Gone ∨ owed h' = owed h
  selecting : h.pc = .selecting → h'.pc = .selecting ∨ h'.Gone
  selecting' : h'.pc = .selecting → h.pc = .selecting

lemma debt_of_gone (hg : h.Gone) : debt h = [] := by
  obtain ⟨e, he⟩ := hg
  rw [debt, he]

lemma Quiet.same (hq : Quiet h) (hsame : SameChannel h h') : Quiet h' := by
  refine ⟨fun h0 => hq.1 (hsame.receipt' h0), ?_⟩
  rcases hsame.debt with hg | hdebt
  · exact debt_of_gone hg
  · rw [hdebt]
    exact hq.2

lemma Rung.same {doorbell : Bool} (hr : Rung h doorbell) (hsame : SameChannel h h') :
    Rung h' doorbell := by
  rcases hr with hg | hbell
  · exact Or.inl (hsame.gone hg)
  · rcases hsame.bell with hg | hsame
    · exact Or.inl hg
    · exact Or.inr (hsame.trans hbell)

lemma SameChannel.waits (hsame : SameChannel h h') (hw : h.pc = .answerReceipt ∨ h.Gone) :
    h'.pc = .answerReceipt ∨ h'.Gone := by
  rcases hw with hpc | hg
  · exact hsame.receipt hpc
  · exact Or.inr (hsame.gone hg)

lemma Idle.same {doorbell : Bool} {up : List Up} (hi : Idle s doorbell up)
    (hchannel : s'.channel = s.channel) (hsame : SameChannel s.host s'.host) :
    Idle s' doorbell up := by
  obtain ⟨hrung, ⟨hnoted, hup, hquiet⟩ | ⟨hdown, hup, hwaits⟩⟩ := hi
  · refine ⟨hrung.same hsame, Or.inl ⟨?_, ?_, hquiet.same hsame⟩⟩
    · rw [hchannel]
      exact hnoted
    · rw [hchannel]
      exact hup
  · refine ⟨hrung.same hsame, Or.inr ⟨?_, ?_, hsame.waits hwaits⟩⟩
    · rw [hchannel]
      exact hdown
    · rw [hchannel]
      exact hup

lemma Answers.same {doorbell : Bool} {e : Expected} {down : List Down}
    (ha : Answers decode h doorbell e down) (hsame : SameChannel h h') :
    Answers decode h' doorbell e down := by
  rcases ha with ⟨hroles, hnoted, hquiet, hrung⟩ | ⟨hroles, hdown, hpc, hrest⟩ |
    ⟨hroles, objects, hdown, hdelivers, hrest⟩
  · exact Or.inl ⟨hroles, hnoted, hquiet.same hsame, hrung.same hsame⟩
  · refine Or.inr (Or.inl ⟨hroles, hdown, fun h0 => hpc (hsame.receipt' h0), ?_⟩)
    rcases hrest with hg | ⟨hdelivers, hbell⟩
    · exact Or.inl (hsame.gone hg)
    · rcases hsame.bell with hg | hb
      · exact Or.inl hg
      rcases hsame.debt with hg | hd
      · exact Or.inl hg
      · rw [hb, hd]
        exact Or.inr ⟨hdelivers, hbell⟩
  · refine Or.inr (Or.inr ⟨hroles, objects, hdown, hdelivers, ?_⟩)
    rcases hrest with hg | ⟨hpc, hbell⟩
    · exact Or.inl (hsame.gone hg)
    · rcases hsame.bell with hg | hb
      · exact Or.inl hg
      rcases hsame.receipt hpc with hpc | hg
      · rw [hb]
        exact Or.inr ⟨hpc, hbell⟩
      · exact Or.inl hg

lemma Channel.same {pc : ConsumerPc} (hc : Channel decode s pc) (hchannel : s'.channel = s.channel)
    (hview : s'.consumer.view = s.consumer.view) (hsame : SameChannel s.host s'.host) :
    Channel decode s' pc := by
  cases pc with
  | attached =>
      obtain ⟨v, hv, hidle⟩ := hc
      exact ⟨v, hview.trans hv, hidle.same hchannel hsame⟩
  | lateSelecting x =>
      obtain ⟨v, hv, hidle | ⟨hup, notices, refusal, tracks, down, hdown, hreplay, hanswers⟩⟩ := hc
      · exact ⟨v, hview.trans hv, Or.inl (hidle.same hchannel hsame)⟩
      · refine ⟨v, hview.trans hv, Or.inr ⟨?_, notices, refusal, tracks, down, ?_, hreplay,
          hanswers.same hsame⟩⟩
        · rw [hchannel]
          exact hup
        · rw [hchannel]
          exact hdown
  | lateReceiving x =>
      obtain ⟨v, hv, hup, hroles, hanswers⟩ := hc
      rw [← hchannel] at hup hanswers
      exact ⟨v, hview.trans hv, hup, hroles, hanswers.same hsame⟩
  | failed e => trivial
  | _ =>
      obtain ⟨hnoted, hup, hquiet⟩ := hc
      rw [← hchannel] at hnoted hup
      exact ⟨hnoted, hup, hquiet.same hsame⟩

lemma ChannelUp.same (hc : ChannelUp s) (hchannel : s'.channel = s.channel)
    (hsame : SameChannel s.host s'.host) : ChannelUp s' := by
  rw [ChannelUp, hchannel]
  rcases hc with hg | ⟨hpc, hup⟩ | ⟨hpc, hup, hdebt⟩
  · exact Or.inl (hsame.gone hg)
  · rcases hsame.receipt hpc with hpc | hg
    · exact Or.inr (Or.inl ⟨hpc, hup⟩)
    · exact Or.inl hg
  · rcases hsame.debt with hg | hd
    · exact Or.inl hg
    · rw [← hd] at hdebt
      exact Or.inr (Or.inr ⟨fun h0 => hpc (hsame.receipt' h0), hup, hdebt⟩)

lemma Owes.same {down : List Down} {todo : List Role} {e : Expected}
    (ho : Owes decode h down todo e) (hsame : SameMedia h h') : Owes decode h' down todo e := by
  obtain ⟨hpc, transfers, rest, hdown, hmeets, hrest⟩ := ho
  refine ⟨fun h0 => hpc (hsame.selecting' h0), transfers, rest, hdown, hmeets, ?_⟩
  rcases hrest with hg | ⟨hrest, hbell⟩
  · exact Or.inl (hsame.gone hg)
  · rcases hsame.owes with hg | ho
    · exact Or.inl hg
    rcases hsame.bell with hg | hb
    · exact Or.inl hg
    · rw [ho, hb]
      exact Or.inr ⟨hrest, hbell⟩

lemma SameMedia.waits (hsame : SameMedia h h') (hw : h.pc = .selecting ∨ h.Gone) :
    h'.pc = .selecting ∨ h'.Gone := by
  rcases hw with hpc | hg
  · exact hsame.selecting hpc
  · exact Or.inr (hsame.gone hg)

lemma SameMedia.nothing (hsame : SameMedia h h') (ho : h.Gone ∨ owed h = []) :
    h'.Gone ∨ owed h' = [] := by
  rcases ho with hg | ho
  · exact Or.inl (hsame.gone hg)
  · rcases hsame.owes with hg | h0
    · exact Or.inl hg
    · exact Or.inr (h0.trans ho)

lemma Media.same {pc : ConsumerPc} (hm : Media decode base s pc) (hdown : s'.media.down = s.media.down)
    (hconsumer : s'.consumer = s.consumer) (hsame : SameMedia s.host s'.host) :
    Media decode base s' pc := by
  cases pc with
  | connecting => exact ⟨hdown.trans hm.1, hsame.waits hm.2⟩
  | offered => exact ⟨hdown.trans hm.1, hsame.waits hm.2⟩
  | selecting =>
      rcases hm with ⟨hempty, hwaits⟩ | ⟨hpc, admissions, down, hadmitted, hids, howes⟩
      · exact Or.inl ⟨hdown.trans hempty, hsame.waits hwaits⟩
      · refine Or.inr ⟨fun h0 => hpc (hsame.selecting' h0), admissions, down,
          hdown.trans hadmitted, ?_, fun hnone => ?_⟩
        · rw [hconsumer]
          exact hids
        · rw [hconsumer] at hnone
          exact (howes hnone).same hsame
  | channels todo =>
      rw [Media, hdown, hconsumer]
      exact Owes.same hm hsame
  | rings =>
      rw [Media, hdown, hconsumer]
      exact ⟨hm.1.same hsame, hm.2⟩
  | joining =>
      obtain ⟨hpc, hempty, hrest⟩ := hm
      refine ⟨fun h0 => hpc (hsame.selecting' h0), hdown.trans hempty, ?_⟩
      rcases hrest with hg | ⟨howed, hbell⟩
      · exact Or.inl (hsame.gone hg)
      · rcases hsame.owes with hg | h0
        · exact Or.inl hg
        rcases hsame.bell with hg | hb
        · exact Or.inl hg
        · rw [hconsumer]
          exact Or.inr ⟨h0.trans howed, hb.trans hbell⟩
  | attached =>
      exact ⟨hdown.trans hm.1, hsame.nothing hm.2.1, fun h0 => hm.2.2 (hsame.selecting' h0)⟩
  | lateSelecting x =>
      exact ⟨hdown.trans hm.1, hsame.nothing hm.2.1, fun h0 => hm.2.2 (hsame.selecting' h0)⟩
  | lateReceiving x =>
      exact ⟨hdown.trans hm.1, hsame.nothing hm.2.1, fun h0 => hm.2.2 (hsame.selecting' h0)⟩
  | failed e => trivial

lemma MediaUp.same (hm : MediaUp base s) (hup : ∀ u ∈ s'.media.up, u ∈ s.media.up)
    (hselecting : s.host.pc = .selecting → s'.media.up = s.media.up)
    (hselection : s'.consumer.selection = s.consumer.selection)
    (hsame : SameMedia s.host s'.host) : MediaUp base s' := by
  rcases hm with ⟨hpc, hsent⟩ | hg | ⟨hpc, hreceipts⟩
  · rcases hsame.selecting hpc with hpc' | hg
    · refine Or.inl ⟨hpc', ?_⟩
      rw [hselecting hpc, hselection]
      exact hsent
    · exact Or.inr (Or.inl hg)
  · exact Or.inr (Or.inl (hsame.gone hg))
  · refine Or.inr (Or.inr ⟨fun h0 => hpc (hsame.selecting' h0), fun u hu => ?_⟩)
    exact hreceipts u (hup u hu)

end Jackstay.Handshake
