import Jackstay.Handshake.Streams

/-!
The steps of the host keep the two sides in agreement.

* `Owes.handshake`: after its admissions the host owes what the consumer is going to wait for.
* `Answers.serve`: so it is after its answer to a late selection.
* `Notices.Keeps`: a notice leaves a ring for each audio track.
-/

namespace Jackstay.Handshake

open Transition

variable {decode : List UInt8 → Option Audio.Descriptor} {base : List Track} {s s' : System}
  {h h' : Host}

/-! ### The host on the media stream -/

lemma SameChannel.gone_of {e : Error} (hpc : h'.pc = .failed e) : SameChannel h h' := by
  have hg : h'.Gone := ⟨e, hpc⟩
  refine ⟨fun _ => hg, Or.inl hg, Or.inl hg, fun _ => Or.inr hg, fun h0 => ?_⟩
  cases hpc.symm.trans h0

lemma SameMedia.gone_of {e : Error} (hpc : h'.pc = .failed e) : SameMedia h h' := by
  have hg : h'.Gone := ⟨e, hpc⟩
  refine ⟨fun _ => hg, Or.inl hg, Or.inl hg, fun _ => Or.inr hg, fun h0 => ?_⟩
  cases hpc.symm.trans h0

/-- The host gives up. -/
lemma Agreed.hostFails (ha : Agreed decode base s) {error : Error}
    (hfair : (HostPc.failed error).Fair) : Agreed decode base (s.hostAt (.failed error)) := by
  have hstock := ha.stocked
  refine ⟨ha.converged.hostFails error, ?_, ?_, ?_, ?_, ?_, ha.exchanges, ha.mapped, ha.fair, ha.silent⟩
  · exact ⟨hstock.offer, hstock.ids, hstock.rings, fun h0 => (nomatch h0), trivial,
      fun h0 => (nomatch h0), hfair⟩
  · exact ha.media.same rfl rfl (.gone_of rfl)
  · exact ha.mediaUp.same (fun _ h0 => h0) (fun _ => rfl) rfl (.gone_of rfl)
  · exact ha.channel.same rfl rfl (.gone_of rfl)
  · exact ha.channelUp.same rfl (.gone_of rfl)

/-- A consumer that waits for its admissions, or has gone, while the host has a selection. -/
lemma Agreed.selecting (ha : Agreed decode base s) (hpc : s.host.pc = .selecting)
    {selection : List Selected} {up : List Up} (hup : s.media.up = .selection selection :: up) :
    (selection = s.consumer.selection ∧ up = [] ∧ validSelection base selection = true) ∧
      ((∃ e, s.consumer.pc = .failed e) ∨ s.consumer.pc = .selecting ∧ s.media.down = []) := by
  constructor
  · rcases ha.mediaUp with ⟨-, hempty | ⟨hsent, hvalid⟩⟩ | ⟨e, hg⟩ | ⟨hne, -⟩
    · cases hup.symm.trans hempty
    · cases hup.symm.trans hsent
      exact ⟨rfl, rfl, hvalid⟩
    · cases hpc.symm.trans hg
    · exact absurd hpc hne
  · have hearly : ¬ (s.consumer.pc = .connecting ∨ s.consumer.pc = .offered) := by
      intro h0
      cases hup.symm.trans (ha.converged.numbering.early h0).1
    have hmedia := ha.media
    cases hc : s.consumer.pc with
    | connecting => exact absurd (Or.inl hc) hearly
    | offered => exact absurd (Or.inr hc) hearly
    | selecting =>
        rw [hc] at hmedia
        rcases hmedia with ⟨hempty, -⟩ | ⟨hne, -⟩
        · exact Or.inr ⟨rfl, hempty⟩
        · exact absurd hpc hne
    | channels todo =>
        rw [hc] at hmedia
        exact absurd hpc hmedia.1
    | rings =>
        rw [hc] at hmedia
        exact absurd hpc hmedia.1.1
    | joining =>
        rw [hc] at hmedia
        exact absurd hpc hmedia.1
    | attached =>
        rw [hc] at hmedia
        exact absurd hpc hmedia.2.2
    | lateSelecting x =>
        rw [hc] at hmedia
        exact absurd hpc hmedia.2.2
    | lateReceiving x =>
        rw [hc] at hmedia
        exact absurd hpc hmedia.2.2
    | failed e => exact Or.inl ⟨e, rfl⟩

/-- **What `accept` owes after its admissions is what the consumer is going to wait for.** -/
lemma Owes.handshake (hpc : h.pc = .channels (System.channelObjects h.offer h.admissions))
    (hrings : List.Forall₂ (Owns decode) ((audioTracks h.offer h.admissions).map (·.2))
      (System.admittedRings h)) :
    Owes decode h [] (System.channelRoles h.offer h.admissions)
      (expectsOf h.offer h.admissions) := by
  have haudio : ∀ t ∈ (audioTracks h.offer h.admissions).map (·.2), t.kind.audio = true :=
    fun t ht => (audioTracks_audio t ht).2
  obtain ⟨hdelivers, hbell⟩ := ringObjects_delivers false
    (videoPosition h.offer h.admissions).isSome hrings haudio
  refine ⟨?_, [], owed h, rfl, ?_, Or.inr ⟨rfl, ?_⟩⟩
  · rw [hpc]
    exact fun h0 => (nomatch h0)
  · refine ⟨System.channelObjects h.offer h.admissions,
      if owedRings h = [] then [] else [owedRings h], ?_, ?_, ?_, ?_⟩
    · rw [List.nil_append, owed, hpc]
    · rw [System.channelObjects, System.channelRoles, List.map_append, List.map_map]
      rfl
    · intro o ho
      rcases List.mem_append.mp ho with ho | ho
      · obtain ⟨kind, -, rfl⟩ := List.mem_map.mp ho
        rfl
      · cases List.mem_singleton.mp ho
        rfl
    · by_cases hempty : owedRings h = []
      · exact Or.inl ⟨hdelivers.eq_nil.mp hempty, if_pos hempty⟩
      · refine Or.inr ⟨fun h0 => hempty (hdelivers.eq_nil.mpr h0), owedRings h, if_neg hempty, ?_⟩
        exact hdelivers
  · rw [owedBell, hpc]
    exact hbell.symm

/-- `accept` answers the selection. -/
lemma Agreed.onSelection (ha : Agreed decode base s) {w : World} (hpc : s.host.pc = .selecting)
    {selection : List Selected} {up : List Up} (hup : s.media.up = .selection selection :: up)
    (hs : s.step decode (.readSelection w) =
      some (({ s with media := { s.media with up } } : System).onSelection w selection))
    (hfirst : ∀ x ∈ audioTracks s.host.offer
        (answerSelection w s.host.offer s.host.target s.host.notices.playback selection []).1,
      x.2.FirstRing s.host.notices.playback) :
    Agreed decode base (({ s with media := { s.media with up } } : System).onSelection w
      selection) := by
  have hconverged := ha.converged.step (l := .readSelection w) trivial hs
  obtain ⟨⟨hselection, rfl, hvalid⟩, hconsumer⟩ := ha.selecting hpc hup
  have hstock := ha.stocked
  have hoffer := hstock.offer
  have hnodup : (s.host.offer.map (·.id)).Nodup := by
    rw [hoffer]
    exact validOffer_nodup (hstock.valid hpc)
  have hplayback : validOffer decode s.host.offer s.host.notices.playback = true := by
    rw [hoffer]
    exact hstock.valid hpc
  obtain ⟨hrings, hclaimed⟩ := admittedRings_owned hplayback hnodup hfirst
  have hids := answerSelection_ids w s.host.offer s.host.target s.host.notices.playback selection []
  rw [← hoffer] at hvalid
  have htarget : ¬ (.input ∈ channelKinds s.host.offer
      (answerSelection w s.host.offer s.host.target s.host.notices.playback selection []).1 ∧
        s.host.target = false) := by
    rintro ⟨hinput, hno⟩
    cases hno.symm.trans (answerSelection_target hinput)
  have hquiet : ∀ s₁ : System, s₁.channel = s.channel → s₁.consumer = s.consumer →
      Quiet s₁.host → Channel decode s₁ s₁.consumer.pc := by
    intro s₁ hchannel hsame hq
    have hc := ha.channel
    rw [hsame]
    rcases hconsumer with ⟨e, he⟩ | ⟨he, -⟩
    · rw [he]
      trivial
    · rw [he] at hc ⊢
      obtain ⟨hnoted, hempty, -⟩ := hc
      rw [← hchannel] at hnoted hempty
      exact ⟨hnoted, hempty, hq⟩
  have hsingle : Single s.channel.up := by
    rcases ha.channelUp with ⟨e, hg⟩ | ⟨h0, -⟩ | ⟨-, h0, -⟩
    · cases hpc.symm.trans hg
    · cases hpc.symm.trans h0
    · exact h0
  have hmedia : ∀ s₁ : System, s₁.consumer = s.consumer → s₁.host.pc ≠ .selecting →
      (∃ admissions, s₁.media.down = s.media.down ++ [.admitted admissions] ∧
        admissions.map (·.id) = selection.map (·.id) ∧ (refused selection admissions = none →
          Owes decode s₁.host [] (System.channelRoles base admissions)
            (expectsOf base admissions))) → Media decode base s₁ s₁.consumer.pc := by
    rintro s₁ hsame hne ⟨admissions, hdown, hanswers, howes⟩
    rw [hsame]
    rcases hconsumer with ⟨e, he⟩ | ⟨he, hempty⟩
    · rw [he]
      trivial
    · rw [he]
      rw [hempty] at hdown
      refine Or.inr ⟨hne, admissions, [], hdown, ?_, fun hnone => ?_⟩
      · rw [hsame, ← hselection]
        exact hanswers
      · rw [hsame, ← hselection] at hnone
        exact howes hnone
  rw [System.onSelection] at hconverged ⊢
  dsimp only at hconverged ⊢
  rw [if_neg (by rw [hvalid]; exact Bool.noConfusion)] at hconverged ⊢
  cases hrefused : refused selection
      (answerSelection w s.host.offer s.host.target s.host.notices.playback selection []).1 with
  | some x =>
      obtain ⟨id, r⟩ := x
      rw [hrefused] at hconverged
      refine ⟨hconverged, ⟨hoffer, hstock.ids, hstock.rings, by rintro ⟨⟩, trivial,
        (by rintro ⟨⟩), Or.inr ⟨id, r, rfl⟩⟩, ?_, Or.inr (Or.inl ⟨_, rfl⟩), ?_,
        Or.inl ⟨_, rfl⟩, ha.exchanges, ha.mapped, ha.fair, ha.silent⟩
      · refine hmedia _ rfl (by rintro ⟨⟩) ⟨_, rfl, hids, fun hnone => ?_⟩
        cases hrefused.symm.trans hnone
      · exact hquiet _ rfl rfl ⟨by rintro ⟨⟩, rfl⟩
  | none =>
      rw [hrefused] at hconverged
      dsimp only at hconverged ⊢
      rw [if_neg htarget] at hconverged ⊢
      refine ⟨hconverged, ⟨hoffer, hstock.ids, hstock.rings, by rintro ⟨⟩, hclaimed,
        (by rintro ⟨⟩), trivial⟩, ?_, Or.inr (Or.inr ⟨by rintro ⟨⟩,
          (by rintro u ⟨⟩)⟩), ?_, Or.inr (Or.inr ⟨by rintro ⟨⟩, hsingle,
          fun h0 => absurd rfl h0⟩), ha.exchanges, ha.mapped, ha.fair, ha.silent⟩
      · refine hmedia _ rfl (by rintro ⟨⟩) ⟨_, rfl, hids, fun _ => ?_⟩
        rw [← hoffer]
        exact Owes.handshake rfl hrings
      · exact hquiet _ rfl rfl ⟨by rintro ⟨⟩, rfl⟩

/-- A host that passes something has not gone. -/
lemma not_gone {pc : HostPc} (hpc : h.pc = pc) (hne : ∀ e, pc ≠ .failed e) : ¬ h.Gone := by
  rintro ⟨e, he⟩
  exact hne e (hpc.symm.trans he)

/-- A transfer is on its way that was owed before. -/
lemma Owes.pass {down : List Down} {todo : List Role} {e : Expected} {objects : List Object}
    (ho : Owes decode h down todo e) (hgone : ¬ h.Gone) (hpc : h'.pc ≠ .selecting)
    (howed : owed h = objects :: owed h') (hbell : owedBell h' = owedBell h) :
    Owes decode h' (down ++ [.objects objects]) todo e := by
  obtain ⟨-, transfers, rest, hdown, hmeets, hg | ⟨rfl, hb⟩⟩ := ho
  · exact absurd hg hgone
  · refine ⟨hpc, transfers ++ [objects], owed h', ?_, ?_, Or.inr ⟨rfl, hbell.trans hb⟩⟩
    · rw [hdown, List.map_append]
      rfl
    · rw [howed] at hmeets
      rw [List.append_assoc]
      exact hmeets

lemma Media.pass {pc : ConsumerPc} (hm : Media decode base s pc) {objects : List Object}
    (hgone : ¬ s.host.Gone) (hpc : s.host.pc ≠ .selecting) (hpc' : s'.host.pc ≠ .selecting)
    (howed : owed s.host = objects :: owed s'.host) (hbell : owedBell s'.host = owedBell s.host)
    (hdown : s'.media.down = s.media.down ++ [.objects objects])
    (hconsumer : s'.consumer = s.consumer) : Media decode base s' pc := by
  have hnot : ¬ (s.host.pc = .selecting ∨ s.host.Gone) := fun h0 => h0.elim hpc hgone
  have hsome : ¬ (s.host.Gone ∨ owed s.host = []) := by
    rintro (hg | hempty)
    · exact hgone hg
    · cases howed.symm.trans hempty
  cases pc with
  | connecting => exact absurd hm.2 hnot
  | offered => exact absurd hm.2 hnot
  | selecting =>
      rcases hm with ⟨-, hwaits⟩ | ⟨-, admissions, down, hadmitted, hids, howes⟩
      · exact absurd hwaits hnot
      · refine Or.inr ⟨hpc', admissions, down ++ [.objects objects], ?_, ?_, fun hnone => ?_⟩
        · rw [hdown, hadmitted]
          rfl
        · rw [hconsumer]
          exact hids
        · rw [hconsumer] at hnone
          exact (howes hnone).pass hgone hpc' howed hbell
  | channels todo =>
      rw [Media, hdown, hconsumer]
      exact Owes.pass hm hgone hpc' howed hbell
  | rings =>
      rw [Media, hdown, hconsumer]
      exact ⟨hm.1.pass hgone hpc' howed hbell, hm.2⟩
  | joining =>
      obtain ⟨-, -, hg | ⟨hempty, -⟩⟩ := hm
      · exact absurd hg hgone
      · exact absurd (Or.inr hempty) hsome
  | attached => exact absurd hm.2.1 hsome
  | lateSelecting x => exact absurd hm.2.1 hsome
  | lateReceiving x => exact absurd hm.2.1 hsome
  | failed e => trivial

/-- `accept` passes a channel, or the rings. -/
lemma Agreed.passMedia (ha : Agreed decode base s) {w : World} {todo : List Object}
    (hpc : s.host.pc = .channels todo) (hconverged : Converged base (s.passMedia w todo)) :
    Agreed decode base (s.passMedia w todo) := by
  have hgone := not_gone hpc (by rintro _ ⟨⟩)
  have hne : s.host.pc ≠ .selecting := fun h0 => by cases hpc.symm.trans h0
  have hstock := ha.stocked
  have hclaimed := hstock.claimed
  rw [hpc] at hclaimed
  have hreceipts : ∀ u ∈ s.media.up, u = .receipt := by
    rcases ha.mediaUp with ⟨h0, -⟩ | hg | ⟨-, h0⟩
    · exact absurd h0 hne
    · exact absurd hg hgone
    · exact h0
  have hsame : ∀ h' : Host, owedBell h' = owedBell s.host → debt h' = [] →
      h'.pc ≠ .answerReceipt → SameChannel s.host h' := by
    intro h' hbell hdebt hpc'
    refine ⟨fun hg => absurd hg hgone, Or.inr hbell, Or.inr ?_, fun h0 => ?_,
      fun h0 => absurd h0 hpc'⟩
    · rw [hdebt, debt, hpc]
    · cases hpc.symm.trans h0
  cases todo with
  | cons o todo =>
      have hbell : owedBell ({ s.host with pc := .channelReceipt todo } : Host) =
          owedBell s.host := by
        rw [owedBell, owedBell, hpc]
        rfl
      have howed : owed s.host = [o] :: owed { s.host with pc := .channelReceipt todo } := by
        rw [owed, owed, hpc]
        rfl
      refine ⟨hconverged, ⟨hstock.offer, hstock.ids, hstock.rings, by rintro ⟨⟩, hclaimed,
        (by rintro ⟨⟩), trivial⟩, ?_, ?_, ?_, ?_, ha.exchanges, ha.mapped, ha.fair, ha.silent⟩
      · exact ha.media.pass hgone hne (by rintro ⟨⟩) howed hbell rfl rfl
      · exact Or.inr (Or.inr ⟨by rintro ⟨⟩, hreceipts⟩)
      · exact ha.channel.same rfl rfl (hsame _ hbell rfl (by rintro ⟨⟩))
      · exact ha.channelUp.same rfl (hsame _ hbell rfl (by rintro ⟨⟩))
  | nil =>
      have hbell : owedBell s.host = (false || newBell false
          (videoPosition s.host.offer s.host.admissions).isSome (System.admittedRings s.host)) := by
        rw [owedBell, hpc]
      have howed : owed s.host = if owedRings s.host = [] then [] else [owedRings s.host] := by
        rw [owed, hpc]
        rfl
      rw [System.passMedia] at hconverged ⊢
      dsimp only at hconverged ⊢
      rw [sendRings_eq hclaimed] at hconverged ⊢
      dsimp only at hconverged ⊢
      by_cases hempty : ringObjects false (videoPosition s.host.offer s.host.admissions).isSome
          (System.admittedRings s.host) = []
      · rw [if_pos hempty] at hconverged ⊢
        have howed := howed.trans (if_pos hempty)
        refine ⟨hconverged, ⟨hstock.offer, hstock.ids, hstock.rings, by rintro ⟨⟩, trivial,
          (by rintro ⟨⟩), trivial⟩, ?_, ?_, ?_, ?_, ha.exchanges, ha.mapped, ha.fair, ha.silent⟩
        · refine ha.media.same rfl rfl ⟨fun hg => absurd hg hgone, Or.inr hbell.symm,
            Or.inr howed.symm, fun h0 => absurd h0 hne, by rintro ⟨⟩⟩
        · exact Or.inr (Or.inr ⟨by rintro ⟨⟩, hreceipts⟩)
        · exact ha.channel.same rfl rfl (hsame _ hbell.symm rfl (by rintro ⟨⟩))
        · exact ha.channelUp.same rfl (hsame _ hbell.symm rfl (by rintro ⟨⟩))
      · rw [if_neg hempty] at hconverged ⊢
        have howed := howed.trans (if_neg hempty)
        refine ⟨hconverged, ⟨hstock.offer, hstock.ids, hstock.rings, by rintro ⟨⟩, trivial,
          (by rintro ⟨⟩), trivial⟩, ?_, ?_, ?_, ?_, ha.exchanges, ha.mapped, ha.fair, ha.silent⟩
        · exact ha.media.pass hgone hne (by rintro ⟨⟩) howed hbell.symm rfl rfl
        · exact Or.inr (Or.inr ⟨by rintro ⟨⟩, hreceipts⟩)
        · exact ha.channel.same rfl rfl (hsame _ hbell.symm rfl (by rintro ⟨⟩))
        · exact ha.channelUp.same rfl (hsame _ hbell.symm rfl (by rintro ⟨⟩))

/-- `accept` reads an acknowledgement. -/
lemma Agreed.mediaReceipt (ha : Agreed decode base s) {pc : HostPc}
    (hgone : ¬ s.host.Gone) (hne : s.host.pc ≠ .selecting)
    (hmedia : SameMedia s.host { s.host with pc })
    (hchannel : SameChannel s.host { s.host with pc })
    (hstock : Stocked decode base { s.host with pc }) (hs : s.mediaReceipt pc = some s')
    (hconverged : Converged base s') : Agreed decode base s' := by
  have hreceipts : ∀ u ∈ s.media.up, u = .receipt := by
    rcases ha.mediaUp with ⟨h0, -⟩ | hg | ⟨-, h0⟩
    · exact absurd h0 hne
    · exact absurd hg hgone
    · exact h0
  unfold System.mediaReceipt at hs
  split at hs
  · cases hs
  · rename_i up hup
    cases hs
    refine ⟨hconverged, hstock, ha.media.same rfl rfl hmedia, ?_, ha.channel.same rfl rfl hchannel,
      ha.channelUp.same rfl hchannel, ha.exchanges, ha.mapped, ha.fair, ha.silent⟩
    refine ha.mediaUp.same (fun u hu => ?_) (fun h0 => absurd h0 hne) rfl hmedia
    rw [hup]
    exact List.mem_cons_of_mem _ hu
  · rename_i ts up hup
    cases hreceipts (.selection ts) (hup ▸ List.mem_cons_self)

/-! ### The notices of the host -/

/-- What a change of the host leaves as it was. -/
structure Notices.Keeps (decode : List UInt8 → Option Audio.Descriptor) (n n' : Notices) :
    Prop where
  ids : (∀ t ∈ n.tracks, t.id ∈ n.offered) → (n.tracks.map (·.id)).Nodup →
    (n'.tracks.map (·.id)).Nodup
  rings : (n.tracks.map (·.id)).Nodup →
    (∀ t ∈ n.tracks, t.kind.audio = true → ∃ p ∈ n.playback, Owns decode t p) →
    ∀ t ∈ n'.tracks, t.kind.audio = true → ∃ p ∈ n'.playback, Owns decode t p
  bell : n'.bell = n.bell

variable {n n' : Notices} {notice : Notice}

lemma Notices.add_keeps {track : Track} {ring : Option Playback}
    (hadd : n.add decode track ring = .ok (n', notice)) : n.Keeps decode n' := by
  rw [Notices.add] at hadd
  split_ifs at hadd with herror
  cases hadd
  push Not at herror
  obtain ⟨-, -, hoffer, hnew⟩ := herror
  have hnew : track.id ∉ n.offered := by simpa using hnew
  refine ⟨fun hids hnodup => ?_, fun _ hrings t ht haudio => ?_, rfl⟩
  · rw [List.map_append]
    refine List.nodup_append.mpr ⟨hnodup, List.nodup_singleton _, fun a ha b hb => ?_⟩
    obtain ⟨t, ht, rfl⟩ := List.mem_map.mp ha
    cases List.mem_singleton.mp hb
    intro h0
    have h0 : t.id = track.id := h0
    exact hnew (h0 ▸ hids t ht)
  · rcases List.mem_append.mp ht with ht | ht
    · obtain ⟨p, hp, howns⟩ := hrings t ht haudio
      exact ⟨p, List.mem_append_left _ hp, howns⟩
    · cases List.mem_singleton.mp ht
      obtain ⟨p, hp, howns, -⟩ := offerable_ring (by simpa using hoffer) haudio
      exact ⟨p, List.mem_append_right _ hp, howns⟩

lemma map_id_set {tracks : List Track} {i : ℕ} {t track : Track} (ht : tracks[i]? = some t)
    (hid : t.id = track.id) : (tracks.set i track).map (·.id) = tracks.map (·.id) := by
  refine List.ext_getElem? fun j => ?_
  rw [List.getElem?_map, List.getElem?_map, List.getElem?_set]
  split_ifs with hij hlt
  · rw [← hij, ht, Option.map_some, Option.map_some, hid]
  · exact absurd (List.getElem?_eq_some_iff.mp ht).1 hlt
  · rfl

lemma Notices.update_keeps {track : Track} (hupdate : n.update decode track = .ok (n', notice)) :
    n.Keeps decode n' := by
  rw [Notices.update] at hupdate
  cases hfind : n.find track.id with
  | none =>
      rw [hfind] at hupdate
      cases hupdate
  | some i =>
      rw [hfind] at hupdate
      dsimp only at hupdate
      split_ifs at hupdate with herror
      cases hupdate
      push Not at herror
      obtain ⟨-, t, ht, hid, -⟩ := Notices.find_eq hfind
      refine ⟨fun _ hnodup => ?_, fun _ hrings x hx haudio => ?_, rfl⟩
      · show ((n.tracks.set i track).map (·.id)).Nodup
        rw [map_id_set ht hid]
        exact hnodup
      · rcases List.mem_or_eq_of_mem_set hx with hx | rfl
        · exact hrings x hx haudio
        · obtain ⟨p, hp, howns, -⟩ := offerable_ring (by simpa using herror.2) haudio
          exact ⟨p, hp, howns⟩

/-- The other tracks have other ids. -/
lemma id_ne_of_mem_eraseIdx {tracks : List Track} (hids : (tracks.map (·.id)).Nodup) {i : ℕ}
    {t x : Track} (ht : tracks[i]? = some t) (hx : x ∈ tracks.eraseIdx i) : x.id ≠ t.id := by
  obtain ⟨j, hj, hx⟩ := List.mem_eraseIdx_iff_getElem?.mp hx
  intro h0
  have hi : (tracks.map (·.id))[i]? = some t.id := by
    rw [List.getElem?_map, ht]
    rfl
  have hj' : (tracks.map (·.id))[j]? = some t.id := by
    rw [List.getElem?_map, hx, ← h0]
    rfl
  obtain ⟨hlt, -⟩ := List.getElem?_eq_some_iff.mp hj'
  exact hj ((List.getElem?_inj hlt hids).mp (hj'.trans hi.symm))

lemma Notices.remove_keeps {id : ℕ} (hremove : n.remove id = .ok (n', notice)) :
    n.Keeps decode n' := by
  rw [Notices.remove] at hremove
  cases hfind : n.find id with
  | none =>
      rw [hfind] at hremove
      cases hremove
  | some i =>
      rw [hfind] at hremove
      cases hremove
      obtain ⟨-, t, ht, hid, -⟩ := Notices.find_eq hfind
      refine ⟨fun _ hnodup => ?_, fun hnodup hrings x hx haudio => ?_, rfl⟩
      · exact hnodup.sublist ((List.eraseIdx_sublist _ _).map _)
      · obtain ⟨p, hp, howns⟩ := hrings x (List.mem_of_mem_eraseIdx hx) haudio
        refine ⟨p, List.mem_filter.mpr ⟨hp, ?_⟩, howns⟩
        have hne := id_ne_of_mem_eraseIdx hnodup ht hx
        rw [hid] at hne
        rw [howns.id]
        simpa using hne

lemma Noted.append {down : List Down} (hn : Noted down) (notice : Notice) :
    Noted (down ++ [.notice notice]) := by
  obtain ⟨notices, rfl⟩ := hn
  refine ⟨notices ++ [notice], ?_⟩
  rw [List.map_append]
  rfl

lemma quiet_of_attached (hpc : h.pc = .attached) : Quiet h := by
  refine ⟨fun h0 => (nomatch hpc.symm.trans h0), ?_⟩
  rw [debt, hpc]

/-- Where the host is at rest, nothing is waited for. -/
lemma Answers.attached {doorbell : Bool} {e : Expected} {down : List Down}
    (ha : Answers decode h doorbell e down) (hpc : h.pc = .attached) :
    e.roles = [] ∧ Noted down ∧ Quiet h ∧ Rung h doorbell := by
  have hgone := not_gone hpc fun _ h0 => (nomatch h0)
  rcases ha with hidle | ⟨hroles, -, -, hg | ⟨hdelivers, -⟩⟩ | ⟨-, objects, -, -, hg | ⟨h0, -⟩⟩
  · exact hidle
  · exact absurd hg hgone
  · rw [debt, hpc] at hdelivers
    exact absurd (hdelivers.eq_nil.mp rfl) hroles
  · exact absurd hg hgone
  · cases hpc.symm.trans h0

/-- A notice is behind what is on its way. -/
lemma Channel.note {pc : ConsumerPc} (hc : Channel decode s pc) {notice : Notice}
    (hpc : s.host.pc = .attached) (hpc' : s'.host.pc = .attached)
    (hbell : s'.host.notices.bell = s.host.notices.bell)
    (hdown : s'.channel.down = s.channel.down ++ [.notice notice])
    (hup : s'.channel.up = s.channel.up) (hview : s'.consumer.view = s.consumer.view) :
    Channel decode s' pc := by
  have hgone := not_gone hpc fun _ h0 => (nomatch h0)
  have hquiet := quiet_of_attached hpc'
  have hrung : ∀ doorbell, Rung s.host doorbell → Rung s'.host doorbell := by
    rintro doorbell (hg | h0)
    · exact absurd hg hgone
    · refine Or.inr ?_
      rw [owedBell, hpc] at h0
      rw [owedBell, hpc', ← h0]
      exact hbell
  have hidle : ∀ doorbell up, Idle s doorbell up → Idle s' doorbell up := by
    rintro doorbell up ⟨hr, ⟨hnoted, hsent, -⟩ | ⟨-, -, h0 | hg⟩⟩
    · refine ⟨hrung _ hr, Or.inl ⟨?_, hup.trans hsent, hquiet⟩⟩
      rw [hdown]
      exact hnoted.append notice
    · cases hpc.symm.trans h0
    · exact absurd hg hgone
  cases pc with
  | attached =>
      obtain ⟨v, hv, hi⟩ := hc
      exact ⟨v, hview.trans hv, hidle _ _ hi⟩
  | lateSelecting x =>
      obtain ⟨v, hv, hi | ⟨hsent, notices, refusal, tracks, down, hd, hreplay, hanswers⟩⟩ := hc
      · exact ⟨v, hview.trans hv, Or.inl (hidle _ _ hi)⟩
      · obtain ⟨hroles, hnoted, -, hr⟩ := hanswers.attached hpc
        refine ⟨v, hview.trans hv, Or.inr ⟨hup.trans hsent, notices, refusal, tracks,
          down ++ [.notice notice], ?_, hreplay, Or.inl ⟨hroles, hnoted.append notice, hquiet,
            hrung _ hr⟩⟩⟩
        rw [hdown, hd, List.append_assoc]
        rfl
  | lateReceiving x =>
      obtain ⟨v, hv, -, hroles, hanswers⟩ := hc
      exact absurd (hanswers.attached hpc).1 hroles
  | failed e => trivial
  | _ =>
      obtain ⟨hnoted, hsent, -⟩ := hc
      refine ⟨?_, hup.trans hsent, hquiet⟩
      rw [hdown]
      exact hnoted.append notice

/-- A change is announced. -/
lemma Agreed.announce (ha : Agreed decode base s) (hpc : s.host.pc = .attached)
    {x : Except Error (Notices × Notice)}
    (hx : ∀ n' notice, x = .ok (n', notice) → s.host.notices.Keeps decode n')
    (hconverged : Converged base (s.announce true x)) : Agreed decode base (s.announce true x) := by
  cases x with
  | error e => exact ha
  | ok x =>
      obtain ⟨n', notice⟩ := x
      have hkeeps := hx n' notice rfl
      have hstock := ha.stocked
      have hgone := not_gone hpc fun _ h0 => (nomatch h0)
      have hnot : ({ s.host with notices := n' } : Host).pc ≠ .selecting :=
        fun h0 => (nomatch hpc.symm.trans h0)
      have hmedia : SameMedia s.host { s.host with notices := n' } := by
        refine ⟨fun hg => absurd hg hgone, Or.inr ?_, Or.inr ?_, fun h0 => absurd h0 hnot,
          fun h0 => absurd h0 hnot⟩
        · rw [owedBell, owedBell, hpc]
          exact hkeeps.bell
        · rw [owed, owed, hpc]
      refine ⟨hconverged, ⟨hstock.offer, ?_, ?_, fun h0 => absurd h0 hnot, ?_,
        fun h0 => absurd h0 hnot, hstock.fair⟩, ha.media.same rfl rfl hmedia,
        ha.mediaUp.same (fun _ h0 => h0) (fun _ => rfl) rfl hmedia, ?_, ?_, ha.exchanges,
        ha.mapped, ha.fair, ha.silent⟩
      · exact hkeeps.ids ha.converged.listing.ids hstock.ids
      · exact hkeeps.rings hstock.ids hstock.rings
      · show Claimed _ s.host.pc
        rw [hpc]
        trivial
      · exact ha.channel.note hpc hpc hkeeps.bell rfl rfl rfl
      · rcases ha.channelUp with hg | ⟨h0, -⟩ | ⟨h0, hsingle, -⟩
        · exact Or.inl hg
        · cases hpc.symm.trans h0
        · refine Or.inr (Or.inr ⟨h0, hsingle, fun hd => absurd ?_ hd⟩)
          exact (quiet_of_attached (h := { s.host with notices := n' }) hpc).2

/-! ### Late selections -/

/-- Notices that have been logged lead to the list of the host. -/
lemma replay_of_chained {tracks : List Track} {notices : List Notice}
    {later : List (Down × List Track)} (hchained : Chained tracks later)
    (hnotices : later.map (·.1) = notices.map .notice) :
    replay tracks notices = some (lastTracks tracks later) := by
  induction later generalizing tracks notices with
  | nil =>
      cases notices with
      | nil => rfl
      | cons n notices => cases hnotices
  | cons x later ih =>
      cases notices with
      | nil => cases hnotices
      | cons n notices =>
          obtain ⟨hfirst, hrest⟩ := List.cons.inj hnotices
          obtain ⟨happly, hchained⟩ := hchained
          have hfirst : x.1 = .notice n := hfirst
          rw [hfirst] at happly
          rw [replay, show n.apply tracks = some x.2 from happly, Option.bind_some]
          exact ih hchained hrest

lemma lastTracks_append' (tracks : List Track) (log more : List (Down × List Track)) :
    lastTracks tracks (log ++ more) = lastTracks (lastTracks tracks log) more := by
  induction log generalizing tracks with
  | nil => rfl
  | cons x log ih => exact ih x.2

/-- The notices on their way lead from the list of the consumer to that of the host. -/
lemma Converged.replay (hc : Converged base s) {v : Tracks} (hv : s.consumer.view = some v)
    {notices : List Notice} (hdown : s.channel.down = notices.map .notice) :
    replay v.tracks notices = some s.host.notices.tracks := by
  obtain ⟨seen, later, hsplit, -, hlater, hseen⟩ := hc.reading.split
  rw [Consumer.Seen, hv] at hseen
  have hchained := hc.listing.chained
  rw [hsplit, chained_append, ← hseen.1] at hchained
  rw [replay_of_chained hchained.2 (hlater.symm.trans hdown), hc.listing.last, hsplit,
    lastTracks_append', ← hseen.1]

lemma roles_refused (doorbell : Bool) (tracks : List Track) (id : ℕ) (r : Refusal) :
    (lateExpects doorbell tracks id (some r)).roles = [] := by
  cases doorbell with
  | false => rfl
  | true => rfl

lemma bell_of_roles {e : Expected} (hroles : e.roles = []) : e.bell = false := by
  by_contra htrue
  rw [Expected.roles, if_pos (by simpa using htrue)] at hroles
  cases hroles

/-- **What `serve` owes is what the consumer is going to wait for.** -/
lemma Answers.serve {w : World} {x : Selected} {doorbell : Bool} (hstock : Stocked decode base h)
    (hown : (h.notices.lateRefusal w x).1 = none →
      ∀ t ∈ h.notices.tracks, t.id = x.id → t.OwnRings h.notices.playback)
    (hrung : h.notices.bell = doorbell) (answers : List (ℕ × ℕ)) :
    Answers decode { h with
        notices := (h.notices.serve w x).1
        answers
        pc := if (h.notices.serve w x).2.isNone then .answering x.id else .attached } doorbell
      (lateExpects doorbell h.notices.tracks x.id (h.notices.lateRefusal w x).1) [] ∧
    Claimed { h with notices := (h.notices.serve w x).1, answers }
      (if (h.notices.serve w x).2.isNone then .answering x.id else .attached) := by
  have hserve : (h.notices.serve w x).2 = (h.notices.lateRefusal w x).1 := rfl
  cases hnone : (h.notices.lateRefusal w x).1 with
  | some r =>
      rw [hserve, hnone]
      refine ⟨Or.inl ⟨roles_refused _ _ _ r, ⟨[], rfl⟩, quiet_of_attached rfl, Or.inr ?_⟩, trivial⟩
      exact hrung
  | none =>
      obtain ⟨hrings, hclaimed⟩ := lateRings_owned hstock.ids hstock.rings hnone (hown hnone)
      have haudio : ∀ t ∈ h.notices.tracks.filter (fun t => t.id == x.id && t.kind.audio),
          t.kind.audio = true := by
        intro t ht
        exact (Bool.and_eq_true_iff.mp (List.mem_filter.mp ht).2).2
      obtain ⟨hdelivers, hbell⟩ := ringObjects_delivers doorbell false hrings haudio
      rw [hserve, hnone]
      refine ⟨?_, hclaimed⟩
      have hdebt : debt { h with
          notices := (h.notices.serve w x).1, answers, pc := .answering x.id } =
          ringObjects doorbell false (h.notices.playback.filter fun p => p.id == x.id) := by
        rw [← hrung]
        rfl
      have howed : owedBell { h with
          notices := (h.notices.serve w x).1, answers, pc := .answering x.id } =
          (doorbell || newBell doorbell false
            (h.notices.playback.filter fun p => p.id == x.id)) := by
        rw [← hrung]
        rfl
      rw [← hbell] at howed
      by_cases hroles : (lateExpects doorbell h.notices.tracks x.id none).roles = []
      · refine Or.inl ⟨hroles, ⟨[], rfl⟩, ⟨fun h0 => (nomatch h0), ?_⟩, Or.inr ?_⟩
        · exact hdebt.trans (hdelivers.eq_nil.mpr hroles)
        · have hnobell : (expect doorbell false
              (h.notices.tracks.filter fun t => t.id == x.id && t.kind.audio)).bell = false :=
            bell_of_roles hroles
          refine howed.trans ?_
          rw [hnobell, Bool.or_false]
      · refine Or.inr (Or.inl ⟨hroles, rfl, fun h0 => (nomatch h0), Or.inr ⟨?_, howed⟩⟩)
        exact hdebt ▸ hdelivers

/-- Once `accept` has returned it owes nothing. -/
lemma owed_eq_nil (hpc : (∃ id, h.pc = .answering id) ∨ h.pc = .attached ∨
    h.pc = .answerReceipt) : owed h = [] := by
  rcases hpc with ⟨id, hpc⟩ | hpc | hpc
  all_goals rw [owed, hpc]

/-- Who has sent a selection on the channel waits for its answer, or has gone. -/
lemma Agreed.selected (ha : Agreed decode base s) (hpc : s.host.pc = .attached) {x : Selected}
    {up : List Up} (hup : s.channel.up = .selection [x] :: up) :
    (∃ e, s.consumer.pc = .failed e) ∨ (up = [] ∧ s.consumer.pc = .lateSelecting x ∧
      ∃ v, s.consumer.view = some v ∧ s.host.notices.bell = v.doorbell ∧ Noted s.channel.down) := by
  have hc := ha.channel
  have hgone := not_gone hpc fun _ h0 => (nomatch h0)
  have hidle : ∀ doorbell sent, Idle s doorbell sent → s.channel.up = sent ∧
      s.host.notices.bell = doorbell ∧ Noted s.channel.down := by
    rintro doorbell sent ⟨hg | hbell, ⟨hnoted, hsent, -⟩ | ⟨-, -, h0 | hg⟩⟩
    · exact absurd hg hgone
    · exact absurd hg hgone
    · exact absurd hg hgone
    · rw [owedBell, hpc] at hbell
      exact ⟨hsent, hbell, hnoted⟩
    · cases hpc.symm.trans h0
    · exact absurd hg hgone
  cases hcp : s.consumer.pc with
  | attached =>
      rw [hcp] at hc
      obtain ⟨v, hv, hi⟩ := hc
      cases hup.symm.trans (hidle _ _ hi).1
  | lateSelecting y =>
      rw [hcp] at hc
      obtain ⟨v, hv, hi | ⟨hempty, -⟩⟩ := hc
      · obtain ⟨hsent, hbell, hnoted⟩ := hidle _ _ hi
        cases hup.symm.trans hsent
        exact Or.inr ⟨rfl, rfl, v, hv, hbell, hnoted⟩
      · cases hup.symm.trans hempty
  | lateReceiving y =>
      rw [hcp] at hc
      obtain ⟨v, hv, hempty, -⟩ := hc
      cases hup.symm.trans hempty
  | failed e => exact Or.inl ⟨e, rfl⟩
  | connecting =>
      rw [hcp] at hc
      cases hup.symm.trans hc.2.1
  | offered =>
      rw [hcp] at hc
      cases hup.symm.trans hc.2.1
  | selecting =>
      rw [hcp] at hc
      cases hup.symm.trans hc.2.1
  | channels todo =>
      rw [hcp] at hc
      cases hup.symm.trans hc.2.1
  | rings =>
      rw [hcp] at hc
      cases hup.symm.trans hc.2.1
  | joining =>
      rw [hcp] at hc
      cases hup.symm.trans hc.2.1

/-- `serve` answers a selection. -/
lemma Agreed.onServe (ha : Agreed decode base s) {w : World} (hpc : s.host.pc = .attached)
    (hown : Owned s (.serve w)) (hs : s.onServe w = some s') (hconverged : Converged base s') :
    Agreed decode base s' := by
  have hgone := not_gone hpc fun _ h0 => (nomatch h0)
  have hstock := ha.stocked
  have hsingle : Single s.channel.up := by
    rcases ha.channelUp with hg | ⟨h0, -⟩ | ⟨-, h0, -⟩
    · exact absurd hg hgone
    · cases hpc.symm.trans h0
    · exact h0
  unfold System.onServe at hs
  split at hs
  · cases hs
  · rename_i x up hup
    cases hs
    have hown := hown x up hup
    have hpc' : (if (s.host.notices.serve w x).2.isNone = true then HostPc.answering x.id
        else .attached) ≠ .selecting ∧
        (if (s.host.notices.serve w x).2.isNone = true then HostPc.answering x.id
        else .attached) ≠ .answerReceipt ∧ (if (s.host.notices.serve w x).2.isNone = true then
        HostPc.answering x.id else .attached).Fair ∧
        ((∃ id, (if (s.host.notices.serve w x).2.isNone = true then HostPc.answering x.id
        else .attached) = .answering id) ∨ (if (s.host.notices.serve w x).2.isNone = true then
        HostPc.answering x.id else .attached) = .attached ∨ (if (s.host.notices.serve w x).2.isNone
        = true then HostPc.answering x.id else .attached) = .answerReceipt) := by
      split_ifs
      · exact ⟨fun h0 => (nomatch h0), fun h0 => (nomatch h0), trivial, Or.inl ⟨x.id, rfl⟩⟩
      · exact ⟨fun h0 => (nomatch h0), fun h0 => (nomatch h0), trivial, Or.inr (Or.inl rfl)⟩
    have hclaimed := (Answers.serve (x := x) hstock hown rfl
      (s.host.answers ++ [(x.id, s.host.notices.positions)])).2
    have hreceipts : ∀ u ∈ s.media.up, u = .receipt := by
      rcases ha.mediaUp with ⟨h0, -⟩ | hg | ⟨-, h0⟩
      · cases hpc.symm.trans h0
      · exact absurd hg hgone
      · exact h0
    have hconsumer := ha.selected hpc hup
    have hlast : up = [] := by
      rcases hsingle with hempty | ⟨y, hone⟩
      · cases hup.symm.trans hempty
      · cases hup.symm.trans hone
        rfl
    subst hlast
    refine ⟨hconverged, ⟨hstock.offer, hstock.ids, hstock.rings, fun h0 => absurd h0 hpc'.1, hclaimed,
      fun h0 => absurd h0 hpc'.1, hpc'.2.2.1⟩, ?_, Or.inr (Or.inr ⟨hpc'.1, hreceipts⟩), ?_,
      Or.inr (Or.inr ⟨hpc'.2.1, Or.inl rfl, fun _ => rfl⟩), ha.exchanges, ha.mapped, ha.fair, ha.silent⟩
    · have hmedia := ha.media
      show Media decode base _ s.consumer.pc
      rcases hconsumer with ⟨e, he⟩ | ⟨-, he, -⟩
      · rw [he]
        trivial
      · rw [he] at hmedia ⊢
        exact ⟨hmedia.1, Or.inr (owed_eq_nil hpc'.2.2.2), hpc'.1⟩
    · show Channel decode _ s.consumer.pc
      rcases hconsumer with ⟨e, he⟩ | ⟨-, he, v, hv, hbell, notices, hnotices⟩
      · rw [he]
        trivial
      · rw [he]
        refine ⟨v, hv, Or.inr ⟨rfl, notices, _, s.host.notices.tracks, [], ?_,
          ha.converged.replay hv hnotices, (Answers.serve hstock hown hbell _).1⟩⟩
        show s.channel.down ++ [_] = _
        rw [hnotices]
        rfl
  · rename_i ts up hnot hup
    obtain ⟨x, rfl⟩ := ha.converged.numbering.singles ts (hup ▸ List.mem_cons_self)
    exact absurd rfl (hnot x)
  · rename_i up hup
    rcases hsingle with hempty | ⟨y, hone⟩
    · cases hup.symm.trans hempty
    · cases hup.symm.trans hone

/-- `serve` passes the rings of a track. -/
lemma Agreed.passLate (ha : Agreed decode base s) {w : World} {id : ℕ}
    (hpc : s.host.pc = .answering id) (hconverged : Converged base (s.passLate w id)) :
    Agreed decode base (s.passLate w id) := by
  have hgone := not_gone hpc (by rintro _ ⟨⟩)
  have hne : s.host.pc ≠ .selecting := fun h0 => by cases hpc.symm.trans h0
  have hstock := ha.stocked
  have hclaimed := hstock.claimed
  rw [hpc] at hclaimed
  have hbell : owedBell s.host = (s.host.notices.bell || newBell s.host.notices.bell false
      (s.host.notices.playback.filter fun p => p.id == id)) := by
    rw [owedBell, hpc]
  have hdebt : debt s.host = ringObjects s.host.notices.bell false
      (s.host.notices.playback.filter fun p => p.id == id) := by
    rw [debt, hpc]
  have howed : owed s.host = [] := owed_eq_nil (Or.inl ⟨id, hpc⟩)
  have hsingle : Single s.channel.up ∧ (debt s.host ≠ [] → s.channel.up = []) := by
    rcases ha.channelUp with hg | ⟨h0, -⟩ | ⟨-, h0⟩
    · exact absurd hg hgone
    · cases hpc.symm.trans h0
    · exact h0
  rw [System.passLate] at hconverged ⊢
  dsimp only at hconverged ⊢
  rw [sendRings_eq hclaimed] at hconverged ⊢
  dsimp only at hconverged ⊢
  by_cases hempty : ringObjects s.host.notices.bell false
      (s.host.notices.playback.filter fun p => p.id == id) = []
  · rw [if_pos hempty] at hconverged ⊢
    refine ⟨hconverged, ⟨hstock.offer, hstock.ids, hstock.rings, by rintro ⟨⟩, trivial,
      (by rintro ⟨⟩), trivial⟩, ?_, ?_, ?_, ?_, ha.exchanges, ha.mapped, ha.fair, ha.silent⟩
    · exact ha.media.same rfl rfl ⟨fun hg => absurd hg hgone, Or.inr hbell.symm,
        Or.inr howed.symm, fun h0 => absurd h0 hne, by rintro ⟨⟩⟩
    · exact ha.mediaUp.same (fun _ h0 => h0) (fun _ => rfl) rfl ⟨fun hg => absurd hg hgone,
        Or.inr hbell.symm, Or.inr howed.symm, fun h0 => absurd h0 hne, by rintro ⟨⟩⟩
    · refine ha.channel.same rfl rfl ⟨fun hg => absurd hg hgone, Or.inr hbell.symm,
        Or.inr (hdebt.trans hempty).symm, fun h0 => ?_, by rintro ⟨⟩⟩
      cases hpc.symm.trans h0
    · exact Or.inr (Or.inr ⟨by rintro ⟨⟩, hsingle.1, fun h0 => absurd rfl h0⟩)
  · rw [if_neg hempty] at hconverged ⊢
    have hnotQuiet : ¬ Quiet s.host := fun hq => hempty (hdebt.symm.trans hq.2)
    have hidle : ∀ doorbell up, ¬ Idle s doorbell up := by
      rintro doorbell up ⟨-, ⟨-, -, hq⟩ | ⟨-, -, h0 | hg⟩⟩
      · exact hnotQuiet hq
      · cases hpc.symm.trans h0
      · exact hgone hg
    have hanswers : ∀ doorbell e down, Answers decode s.host doorbell e down → down = [] ∧
        e.roles ≠ [] ∧ Delivers decode e (ringObjects s.host.notices.bell false
          (s.host.notices.playback.filter fun p => p.id == id)) ∧
        owedBell s.host = (doorbell || e.bell) := by
      rintro doorbell e down (⟨-, -, hq, -⟩ | ⟨hroles, hdown, -, hg | ⟨hdelivers, hrung⟩⟩ |
        ⟨-, objects, -, -, hg | ⟨h0, -⟩⟩)
      · exact absurd hq hnotQuiet
      · exact absurd hg hgone
      · rw [hdebt] at hdelivers
        exact ⟨hdown, hroles, hdelivers, hrung⟩
      · exact absurd hg hgone
      · cases hpc.symm.trans h0
    refine ⟨hconverged, ⟨hstock.offer, hstock.ids, hstock.rings, by rintro ⟨⟩, trivial,
      (by rintro ⟨⟩), trivial⟩, ?_, ?_, ?_, ?_, ha.exchanges, ha.mapped, ha.fair, ha.silent⟩
    · exact ha.media.same rfl rfl ⟨fun hg => absurd hg hgone, Or.inr hbell.symm,
        Or.inr howed.symm, fun h0 => absurd h0 hne, by rintro ⟨⟩⟩
    · exact ha.mediaUp.same (fun _ h0 => h0) (fun _ => rfl) rfl ⟨fun hg => absurd hg hgone,
        Or.inr hbell.symm, Or.inr howed.symm, fun h0 => absurd h0 hne, by rintro ⟨⟩⟩
    · have hc := ha.channel
      show Channel decode _ s.consumer.pc
      cases hcp : s.consumer.pc with
      | attached =>
          rw [hcp] at hc
          obtain ⟨v, hv, hi⟩ := hc
          exact absurd hi (hidle _ _)
      | lateSelecting x =>
          rw [hcp] at hc
          obtain ⟨v, hv, hi | ⟨hup, notices, refusal, tracks, down, hdown, hreplay, ha'⟩⟩ := hc
          · exact absurd hi (hidle _ _)
          · obtain ⟨rfl, hroles, hdelivers, hrung⟩ := hanswers _ _ _ ha'
            refine ⟨v, hv, Or.inr ⟨hup, notices, refusal, tracks, _, ?_, hreplay,
              Or.inr (Or.inr ⟨hroles, _, rfl, hdelivers, Or.inr ⟨rfl, hbell.symm.trans hrung⟩⟩)⟩⟩
            show s.channel.down ++ [_] = _
            rw [hdown, List.append_assoc]
            rfl
      | lateReceiving x =>
          rw [hcp] at hc
          obtain ⟨v, hv, hup, hroles, ha'⟩ := hc
          obtain ⟨hdown, -, hdelivers, hrung⟩ := hanswers _ _ _ ha'
          refine ⟨v, hv, hup, hroles, Or.inr (Or.inr ⟨hroles, _, ?_, hdelivers,
            Or.inr ⟨rfl, hbell.symm.trans hrung⟩⟩)⟩
          show s.channel.down ++ [_] = _
          rw [hdown]
          rfl
      | failed e => trivial
      | _ =>
          rw [hcp] at hc
          exact absurd hc.2.2 hnotQuiet
    · refine Or.inr (Or.inl ⟨rfl, Or.inl (hsingle.2 fun h0 => ?_)⟩)
      exact hempty (hdebt.symm.trans h0)

/-- `serve` reads an acknowledgement. -/
lemma Agreed.channelReceipt (ha : Agreed decode base s) (hpc : s.host.pc = .answerReceipt)
    (hs : s.channelReceipt = some s') (hconverged : Converged base s') :
    Agreed decode base s' := by
  have hgone := not_gone hpc fun _ h0 => (nomatch h0)
  have hne : s.host.pc ≠ .selecting := fun h0 => (nomatch hpc.symm.trans h0)
  have hstock := ha.stocked
  have hbell : owedBell s.host = s.host.notices.bell := by
    rw [owedBell, hpc]
  have howed : owed s.host = [] := owed_eq_nil (Or.inr (Or.inr hpc))
  have hsent : s.channel.up = [] ∨ ∃ up, s.channel.up = .receipt :: up ∧ Single up := by
    rcases ha.channelUp with hg | ⟨-, h0⟩ | ⟨h0, -⟩
    · exact absurd hg hgone
    · exact h0
    · exact absurd hpc h0
  unfold System.channelReceipt at hs
  split at hs
  · cases hs
  · rename_i up hup
    cases hs
    have hsingle : Single up := by
      rcases hsent with hempty | ⟨rest, hrest, hsingle⟩
      · cases hup.symm.trans hempty
      · cases hup.symm.trans hrest
        exact hsingle
    have hmedia : SameMedia s.host { s.host with pc := .attached } :=
      ⟨fun hg => absurd hg hgone, Or.inr hbell.symm, Or.inr howed.symm, fun h0 => absurd h0 hne,
        fun h0 => (nomatch h0)⟩
    have hidle : ∀ doorbell sent, Idle s doorbell sent → up = sent ∧ s.channel.down = [] ∧
        s.host.notices.bell = doorbell := by
      rintro doorbell sent ⟨hg | hb, ⟨-, -, hq⟩ | ⟨hdown, h0, -⟩⟩
      · exact absurd hg hgone
      · exact absurd hg hgone
      · exact absurd hpc hq.1
      · cases hup.symm.trans h0
        exact ⟨rfl, hdown, hbell.symm.trans hb⟩
    refine ⟨hconverged, ⟨hstock.offer, hstock.ids, hstock.rings, fun h0 => (nomatch h0), trivial,
      fun h0 => (nomatch h0), trivial⟩, ha.media.same rfl rfl hmedia,
      ha.mediaUp.same (fun _ h0 => h0) (fun _ => rfl) rfl hmedia, ?_, ?_, ha.exchanges, ha.mapped,
      ha.fair, ha.silent⟩
    · have hc := ha.channel
      show Channel decode _ s.consumer.pc
      cases hcp : s.consumer.pc with
      | attached =>
          rw [hcp] at hc
          obtain ⟨v, hv, hi⟩ := hc
          obtain ⟨hsame, hdown, hb⟩ := hidle _ _ hi
          exact ⟨v, hv, Or.inr hb, Or.inl ⟨⟨[], hdown⟩, hsame, quiet_of_attached rfl⟩⟩
      | lateSelecting x =>
          rw [hcp] at hc
          obtain ⟨v, hv, hi | ⟨hempty, -⟩⟩ := hc
          · obtain ⟨hsame, hdown, hb⟩ := hidle _ _ hi
            exact ⟨v, hv, Or.inl ⟨Or.inr hb, Or.inl ⟨⟨[], hdown⟩, hsame, quiet_of_attached rfl⟩⟩⟩
          · cases hup.symm.trans hempty
      | lateReceiving x =>
          rw [hcp] at hc
          obtain ⟨v, hv, hempty, -⟩ := hc
          cases hup.symm.trans hempty
      | failed e => trivial
      | _ =>
          rw [hcp] at hc
          exact absurd hpc hc.2.2.1
    · exact Or.inr (Or.inr ⟨fun h0 => (nomatch h0), hsingle, fun h0 => absurd rfl h0⟩)
  · rename_i ts up hup
    rcases hsent with hempty | ⟨rest, hrest, -⟩
    · cases hup.symm.trans hempty
    · cases hup.symm.trans hrest

end Jackstay.Handshake
