import Jackstay.Handshake.Hosting

/-!
The two sides agree on every transfer.

* `Agreed.step`: one step of either side.
* `transfers_agree`: every run in which the host has just the rings of its tracks.
* `transfers_disagree`: a ring that is given to `accept` and again to `add`.
-/

namespace Jackstay.Handshake

open Transition

variable {decode : List UInt8 → Option Audio.Descriptor} {base : List Track} {s s' : System}
  {h : Host}

/-! ### The consumer -/

/-- The consumer gives up. -/
lemma Agreed.fails (ha : Agreed decode base s) {error : Error} (hne : error ≠ mismatch)
    (hfair : (ConsumerPc.failed error).Fair) :
    Agreed decode base (s.consumerAt (.failed error)) := by
  refine ⟨ha.converged.fails hne, ha.stocked, trivial, ?_, trivial, ?_, ha.exchanges, ha.mapped,
    hfair, fun h0 => (nomatch h0)⟩
  · exact ha.mediaUp
  · exact ha.channelUp

lemma Agreed.onConnect (ha : Agreed decode base s) (hids : (base.map (·.id)).Nodup)
    (hpc : s.consumer.pc = .connecting) (hs : s.onConnect = some s')
    (hconverged : Converged base s') : Agreed decode base s' := by
  have hmedia := ha.media
  have hchannel := ha.channel
  rw [hpc] at hmedia hchannel
  unfold System.onConnect at hs
  rw [hmedia.1] at hs
  dsimp only at hs
  rw [if_pos hids] at hs
  cases hs
  refine ⟨hconverged, ha.stocked, ⟨rfl, hmedia.2⟩, ha.mediaUp, hchannel, ha.channelUp,
    ha.exchanges, ha.mapped, trivial, fun _ _ => ha.silent ?_ ?_⟩
  · rw [hpc]
    rfl
  · rw [hpc]
    exact fun h0 => (nomatch h0)

lemma Agreed.onSelect (ha : Agreed decode base s) (hpc : s.consumer.pc = .offered)
    {selection : List Selected} (hconverged : Converged base (s.onSelect selection)) :
    Agreed decode base (s.onSelect selection) := by
  have hmedia := ha.media
  have hchannel := ha.channel
  have hoffer : s.consumer.offer = base := by
    refine ha.converged.reading.offer ?_ ?_
    · rw [hpc]
      rfl
    · rw [hpc]
      exact fun h0 => (nomatch h0)
  have hsilent : s.consumer.doorbell = false := by
    refine ha.silent ?_ ?_
    · rw [hpc]
      rfl
    · rw [hpc]
      exact fun h0 => (nomatch h0)
  have hup := (ha.converged.numbering.early (Or.inr hpc)).1
  rw [hpc] at hmedia hchannel
  by_cases hvalid : validSelection s.consumer.offer selection = true
  · rw [System.onSelect, if_pos hvalid] at hconverged ⊢
    rw [hoffer] at hvalid
    refine ⟨hconverged, ha.stocked, Or.inl hmedia, ?_, hchannel, ha.channelUp, ha.exchanges,
      ha.mapped, trivial, fun _ _ => hsilent⟩
    rcases hmedia.2 with hselecting | hg
    · refine Or.inl ⟨hselecting, Or.inr ⟨?_, hvalid⟩⟩
      show s.media.up ++ [Up.selection selection] = _
      rw [hup]
      rfl
    · exact Or.inr (Or.inl hg)
  · rw [System.onSelect, if_neg hvalid] at hconverged ⊢
    exact ha.fails (by simp [mismatch]) (Or.inr (Or.inr (Or.inl rfl)))

lemma Agreed.onAdmitted (ha : Agreed decode base s) (hpc : s.consumer.pc = .selecting)
    (hs : s.onAdmitted = some s') (hconverged : Converged base s') : Agreed decode base s' := by
  have hmedia := ha.media
  have hchannel := ha.channel
  have hoffer : s.consumer.offer = base := by
    refine ha.converged.reading.offer ?_ ?_
    · rw [hpc]
      rfl
    · rw [hpc]
      rintro ⟨⟩
  rw [hpc] at hmedia hchannel
  unfold System.onAdmitted at hs
  rcases hmedia with ⟨hempty, -⟩ | ⟨hne, admissions, down, hdown, hids, howes⟩
  · rw [hempty] at hs
    cases hs
  · rw [hdown] at hs
    dsimp only at hs
    rw [if_neg (fun h0 => h0 hids)] at hs
    cases hrefused : refused s.consumer.selection admissions with
    | some x =>
        obtain ⟨id, r⟩ := x
        rw [hrefused] at hs
        cases hs
        exact ha.fails (by simp [mismatch]) (Or.inr (Or.inr (Or.inr ⟨id, r, rfl⟩)))
    | none =>
        rw [hrefused] at hs
        cases hs
        have howes := howes hrefused
        rw [← hoffer] at howes
        refine ⟨hconverged, ha.stocked, howes, ha.mediaUp, hchannel, ha.channelUp, ha.exchanges,
          ha.mapped, trivial, fun _ _ => ha.silent ?_ ?_⟩
        · rw [hpc]
          rfl
        · rw [hpc]
          rintro ⟨⟩

lemma channel_early {pc : ConsumerPc} (hearly : pc.early = true) :
    Channel decode s pc ↔ Noted s.channel.down ∧ s.channel.up = [] ∧ Quiet s.host := by
  cases pc with
  | attached => cases hearly
  | lateSelecting x => cases hearly
  | lateReceiving x => cases hearly
  | failed e => cases hearly
  | _ => exact Iff.rfl

lemma afterChannels_early (c : Consumer) (todo : List Role) :
    (System.afterChannels c todo).early = true ∧ (System.afterChannels c todo).Fair := by
  cases todo with
  | nil =>
      rw [System.afterChannels]
      split_ifs
      · exact ⟨rfl, trivial⟩
      · exact ⟨rfl, trivial⟩
  | cons role todo => exact ⟨rfl, trivial⟩

/-- The next transfer is the next channel. -/
lemma Meets.head {transfers : List (List Object)} {role : Role} {todo : List Role} {e : Expected}
    (hm : Meets decode transfers (role :: todo) e) : ∃ o rest, transfers = [o] :: rest ∧
      o.role = role ∧ o.isChannel = true ∧ Meets decode rest todo e := by
  obtain ⟨channels, rings, rfl, hroles, hchannel, hrings⟩ := hm
  cases channels with
  | nil => cases hroles
  | cons o channels =>
      obtain ⟨hrole, hroles⟩ := List.cons.inj hroles
      exact ⟨o, channels.map ([·]) ++ rings, rfl, hrole, hchannel o List.mem_cons_self, channels,
        rings, rfl, hroles, fun x hx => hchannel x (List.mem_cons_of_mem _ hx), hrings⟩

/-- After the channels there are the rings, or nothing. -/
lemma Meets.last {transfers : List (List Object)} {e : Expected}
    (hm : Meets decode transfers [] e) : (e.roles = [] ∧ transfers = []) ∨
      e.roles ≠ [] ∧ ∃ objects, transfers = [objects] ∧ Delivers decode e objects := by
  obtain ⟨channels, rings, rfl, hroles, -, hrings⟩ := hm
  rw [List.map_eq_nil_iff] at hroles
  subst hroles
  exact hrings

/-- An acknowledgement is sent on the media stream. -/
lemma MediaUp.acknowledge (hm : MediaUp base s) (hne : s.host.pc ≠ .selecting)
    (hhost : s'.host = s.host) (hup : s'.media.up = s.media.up ++ [Up.receipt]) :
    MediaUp base s' := by
  rw [MediaUp, hhost, hup]
  rcases hm with ⟨h0, -⟩ | hg | ⟨-, hreceipts⟩
  · exact absurd h0 hne
  · exact Or.inr (Or.inl hg)
  · refine Or.inr (Or.inr ⟨hne, fun u hu => ?_⟩)
    rcases List.mem_append.mp hu with hu | hu
    · exact hreceipts u hu
    · exact List.mem_singleton.mp hu

/-- An exchange is recorded. -/
lemma exchanges_append {xs : List Exchange} {expected : List Role} {received : List Object}
    (hxs : ∀ x ∈ xs, x.received.map Object.role = x.expected)
    (hnew : received.map Object.role = expected) :
    ∀ x ∈ xs ++ [⟨expected, received⟩], x.received.map Object.role = x.expected := by
  intro x hx
  rcases List.mem_append.mp hx with hx | hx
  · exact hxs x hx
  · cases List.mem_singleton.mp hx
    exact hnew

/-- `receive_channel`. -/
lemma Agreed.receiveChannel (ha : Agreed decode base s) {role : Role} {todo : List Role}
    (hpc : s.consumer.pc = .channels (role :: todo))
    (hs : s.receiveChannel role todo = some s') (hconverged : Converged base s') :
    Agreed decode base s' := by
  have hmedia := ha.media
  have hchannel := ha.channel
  rw [hpc] at hmedia hchannel
  have hsilent : s.consumer.doorbell = false := by
    refine ha.silent ?_ ?_
    · rw [hpc]
      rfl
    · rw [hpc]
      exact fun h0 => (nomatch h0)
  obtain ⟨hne, transfers, rest, hdown, hmeets, howed⟩ := hmedia
  obtain ⟨o, others, hsplit, hrole, hisChannel, hmeets⟩ := hmeets.head
  unfold System.receiveChannel at hs
  cases transfers with
  | nil =>
      rw [hdown] at hs
      cases hs
  | cons transfer transfers =>
      obtain ⟨rfl, rfl⟩ := List.cons.inj hsplit
      rw [hdown, List.map_cons] at hs
      dsimp only at hs
      rw [if_pos hisChannel] at hs
      cases hs
      obtain ⟨hearly, hfair⟩ := afterChannels_early s.consumer todo
      refine ⟨hconverged, ha.stocked, ?_, ha.mediaUp.acknowledge hne rfl rfl,
        (channel_early hearly).mpr hchannel, ha.channelUp,
        exchanges_append ha.exchanges (congrArg (fun r => [r]) hrole), ha.mapped, hfair,
        fun _ _ => hsilent⟩
      show Media decode base _ (System.afterChannels s.consumer todo)
      cases todo with
      | cons next todo => exact ⟨hne, transfers, rest, rfl, hmeets, howed⟩
      | nil =>
          rw [System.afterChannels]
          split_ifs with hroles
          · rcases hmeets.last with ⟨-, hempty⟩ | ⟨hsome, -⟩
            · obtain ⟨rfl, rfl⟩ := List.append_eq_nil_iff.mp hempty
              refine ⟨hne, rfl, ?_⟩
              rcases howed with hg | ⟨hnothing, hbell⟩
              · exact Or.inl hg
              · refine Or.inr ⟨hnothing.symm, ?_⟩
                show _ = s.consumer.doorbell
                rw [hbell, hsilent]
                exact bell_of_roles hroles
            · exact absurd hroles hsome
          · exact ⟨⟨hne, transfers, rest, rfl, hmeets, howed⟩, hroles⟩

/-- `receive_rings` of `Offered::select`. -/
lemma Agreed.receiveMedia (ha : Agreed decode base s) (hpc : s.consumer.pc = .rings)
    (hs : s.receiveMedia decode = some s') (hconverged : Converged base s') :
    Agreed decode base s' := by
  have hmedia := ha.media
  have hchannel := ha.channel
  rw [hpc] at hmedia hchannel
  have hsilent : s.consumer.doorbell = false := by
    refine ha.silent ?_ ?_
    · rw [hpc]
      rfl
    · rw [hpc]
      exact fun h0 => (nomatch h0)
  obtain ⟨⟨hne, transfers, rest, hdown, hmeets, howed⟩, hroles⟩ := hmedia
  obtain ⟨-, objects, hsplit, hdelivers⟩ := hmeets.last.resolve_left fun h0 => hroles h0.1
  unfold System.receiveMedia at hs
  cases transfers with
  | nil =>
      rw [hdown] at hs
      cases hs
  | cons transfer transfers =>
      obtain ⟨rfl, hempty⟩ := List.cons.inj hsplit
      obtain ⟨rfl, rfl⟩ := List.append_eq_nil_iff.mp hempty
      obtain ⟨mapped, hmapped, hright⟩ := hdelivers.receiveRings
      rw [hdown, List.map_cons] at hs
      dsimp only at hs
      rw [hmapped] at hs
      cases hs
      refine ⟨hconverged, ha.stocked, ⟨hne, rfl, ?_⟩, ha.mediaUp.acknowledge hne rfl rfl, hchannel,
        ha.channelUp, exchanges_append ha.exchanges hdelivers.roles, fun m hm => ?_, trivial,
        fun _ h0 => absurd rfl h0⟩
      · rcases howed with hg | ⟨hnothing, hbell⟩
        · exact Or.inl hg
        · refine Or.inr ⟨hnothing.symm, ?_⟩
          show _ = (s.consumer.doorbell || (System.mediaExpects s.consumer).bell)
          rw [hbell, hsilent, Bool.false_or]
      · rcases List.mem_append.mp hm with hm | hm
        · exact ha.mapped m hm
        · exact hright m hm

/-- `Offered::select` returns. -/
lemma Agreed.onJoin (ha : Agreed decode base s) (hpc : s.consumer.pc = .joining) {connected : Bool}
    (hconverged : Converged base (s.onJoin connected)) :
    Agreed decode base (s.onJoin connected) := by
  have hmedia := ha.media
  have hchannel := ha.channel
  rw [hpc] at hmedia hchannel
  obtain ⟨hne, hdown, howed⟩ := hmedia
  cases connected with
  | false => exact ha.fails (by simp [mismatch]) (Or.inr (Or.inl rfl))
  | true =>
      refine ⟨hconverged, ha.stocked, ⟨hdown, ?_, hne⟩, ha.mediaUp,
        ⟨_, rfl, ?_, Or.inl hchannel⟩, ha.channelUp, ha.exchanges, ha.mapped, trivial,
        (by rintro ⟨⟩)⟩
      · rcases howed with hg | ⟨hnothing, -⟩
        · exact Or.inl hg
        · exact Or.inr hnothing
      · rcases howed with hg | ⟨-, hbell⟩
        · exact Or.inl hg
        · exact Or.inr hbell

lemma Noted.tail {message : Down} {down : List Down} (hn : Noted (message :: down)) :
    (∃ n, message = .notice n) ∧ Noted down := by
  obtain ⟨notices, hnotices⟩ := hn
  cases notices with
  | nil => cases hnotices
  | cons n notices =>
      obtain ⟨rfl, rfl⟩ := List.cons.inj hnotices
      exact ⟨⟨n, rfl⟩, notices, rfl⟩

/-- Where nothing is waited for, the next message is a notice. -/
lemma Idle.read {doorbell : Bool} {up : List Up} (hi : Idle s doorbell up) {message : Down}
    {down : List Down} (s' : System) (hdown : s.channel.down = message :: down) (hhost : s'.host = s.host)
    (hup : s'.channel.up = s.channel.up) (hrest : s'.channel.down = down) :
    (∃ n, message = .notice n) ∧ Idle s' doorbell up := by
  obtain ⟨hrung, ⟨hnoted, hsent, hquiet⟩ | ⟨hempty, -⟩⟩ := hi
  · rw [hdown] at hnoted
    obtain ⟨hnotice, hnoted⟩ := hnoted.tail
    refine ⟨hnotice, ?_⟩
    rw [Idle, hhost, hup, hrest]
    exact ⟨hrung, Or.inl ⟨hnoted, hsent, hquiet⟩⟩
  · cases hdown.symm.trans hempty

lemma Tracks.apply_doorbell {v v' : Tracks} {notice : Notice} (happly : v.apply notice = .ok v') :
    v'.doorbell = v.doorbell ∧ notice.apply v.tracks = some v'.tracks := by
  rw [Tracks.apply] at happly
  split at happly
  · rename_i tracks htracks
    cases happly
    exact ⟨rfl, htracks⟩
  · cases happly

lemma Tracks.apply_error {v : Tracks} {notice : Notice} {error : Error}
    (happly : v.apply notice = .error error) : error = mismatch := by
  rw [Tracks.apply] at happly
  split at happly
  · cases happly
  · cases happly
    rfl

/-- The view of the consumer has changed, and the messages of the channel that it has read. -/
lemma Agreed.reads (ha : Agreed decode base s) (hconverged : Converged base s')
    (hhost : s'.host = s.host) (hmedia : s'.media = s.media)
    (hchannel : Channel decode s' s'.consumer.pc) (hup : ChannelUp s')
    (hexchanges : ∀ x ∈ s'.consumer.exchanges, x.received.map Object.role = x.expected)
    (hmapped : ∀ m ∈ s'.consumer.mapped, m.Right)
    (hselection : s'.consumer.selection = s.consumer.selection)
    (hpc : s.consumer.pc.early = false) (hpc' : s'.consumer.pc.early = false)
    (hgone : ∀ e, s.consumer.pc ≠ .failed e) (hgone' : ∀ e, s'.consumer.pc ≠ .failed e) :
    Agreed decode base s' := by
  have hrest : s.media.down = [] ∧ (s.host.Gone ∨ owed s.host = []) ∧ s.host.pc ≠ .selecting := by
    have hm := ha.media
    cases hc : s.consumer.pc with
    | attached =>
        rw [hc] at hm
        exact hm
    | lateSelecting x =>
        rw [hc] at hm
        exact hm
    | lateReceiving x =>
        rw [hc] at hm
        exact hm
    | failed e => exact absurd hc (hgone e)
    | _ =>
        rw [hc] at hpc
        cases hpc
  have hstock := ha.stocked
  rw [← hhost] at hstock hrest
  rw [← hmedia] at hrest
  refine ⟨hconverged, hstock, ?_, ?_, hchannel, hup, hexchanges, hmapped, ?_, fun h0 => ?_⟩
  · cases hc : s'.consumer.pc with
    | attached => exact hrest
    | lateSelecting x => exact hrest
    | lateReceiving x => exact hrest
    | failed e => trivial
    | _ =>
        rw [hc] at hpc'
        cases hpc'
  · have hm := ha.mediaUp
    rw [MediaUp, ← hhost, ← hmedia, ← hselection] at hm
    exact hm
  · cases hc : s'.consumer.pc with
    | failed e => exact absurd hc (hgone' e)
    | _ => trivial
  · cases hpc'.symm.trans h0

/-- `Tracks::next` returns the first notice of its queue. -/
lemma yieldNext_frame (s : System) (v : Tracks) (hv : s.consumer.view = some v) :
    (s.yieldNext v).host = s.host ∧ (s.yieldNext v).media = s.media ∧
    (s.yieldNext v).channel = s.channel ∧ (s.yieldNext v).consumer.pc = s.consumer.pc ∧
    (s.yieldNext v).consumer.exchanges = s.consumer.exchanges ∧
    (s.yieldNext v).consumer.mapped = s.consumer.mapped ∧
    (s.yieldNext v).consumer.selection = s.consumer.selection ∧
    ∃ v', (s.yieldNext v).consumer.view = some v' ∧ v'.doorbell = v.doorbell := by
  rw [System.yieldNext]
  split
  · exact ⟨rfl, rfl, rfl, rfl, rfl, rfl, rfl, v, hv, rfl⟩
  · exact ⟨rfl, rfl, rfl, rfl, rfl, rfl, rfl, _, rfl, rfl⟩

lemma ChannelUp.congr (hc : ChannelUp s) (hhost : s'.host = s.host)
    (hup : s'.channel.up = s.channel.up) : ChannelUp s' := by
  rw [ChannelUp, hhost, hup]
  exact hc

/-- `Tracks::next`. -/
lemma Agreed.onNext (ha : Agreed decode base s) {v : Tracks} (hv : s.consumer.view = some v)
    (hpc : s.consumer.pc = .attached) (hs : s.onNext v = some s')
    (hconverged : Converged base s') : Agreed decode base s' := by
  have hchannel := ha.channel
  rw [hpc] at hchannel
  obtain ⟨w, hw, hidle⟩ := hchannel
  cases hv.symm.trans hw
  have hearly : s.consumer.pc.early = false := by
    rw [hpc]
    rfl
  have hgone : ∀ e, s.consumer.pc ≠ .failed e := by
    rw [hpc]
    exact fun e h0 => (nomatch h0)
  unfold System.onNext at hs
  split_ifs at hs with hpending
  · cases hs
    obtain ⟨hhost, hmedia, hsame, hpc', hexchanges, hmapped, hselection, v', hv', hbell⟩ :=
      yieldNext_frame s v hv
    refine ha.reads hconverged hhost hmedia ?_ (ha.channelUp.congr hhost (by rw [hsame])) ?_ ?_
      hselection hearly (by rw [hpc']; exact hearly) hgone (by rw [hpc']; exact hgone)
    · rw [hpc', hpc]
      refine ⟨v', hv', ?_⟩
      rw [hbell, Idle, hhost, hsame]
      exact hidle
    · rw [hexchanges]
      exact ha.exchanges
    · rw [hmapped]
      exact ha.mapped
  · split at hs
    · cases hs
    · rename_i n down hdown
      split at hs
      · rename_i v' happly
        cases hs
        obtain ⟨hhost, hmedia, hsame, hpc', hexchanges, hmapped, hselection, v'', hv', hbell⟩ :=
          yieldNext_frame (s.readChannel down v') v' rfl
        obtain ⟨-, hread⟩ := hidle.read (s.readChannel down v') hdown rfl rfl rfl
        refine ha.reads hconverged hhost hmedia ?_ (ha.channelUp.congr hhost (by rw [hsame]; rfl))
          ?_ ?_ hselection hearly (by rw [hpc']; exact hearly) hgone (by rw [hpc']; exact hgone)
        · rw [hpc']
          show Channel decode _ s.consumer.pc
          rw [hpc]
          refine ⟨v'', hv', ?_⟩
          rw [hbell, (Tracks.apply_doorbell happly).1, Idle, hhost, hsame]
          exact hread
        · rw [hexchanges]
          exact ha.exchanges
        · rw [hmapped]
          exact ha.mapped
      · rename_i error happly
        cases hs
        cases Tracks.apply_error happly
        exact absurd rfl hconverged.reading.matched
    · rename_i message down hnot hdown
      obtain ⟨⟨n, rfl⟩, -⟩ := hidle.read (s.readChannel down v) hdown rfl rfl rfl
      exact absurd rfl (hnot n)

/-- `Tracks::select` sends its selection. -/
lemma Agreed.onSelectLate (ha : Agreed decode base s) {v : Tracks} {x : Selected}
    (hv : s.consumer.view = some v) (hpc : s.consumer.pc = .attached)
    (hconverged : Converged base (s.onSelectLate v x)) :
    Agreed decode base (s.onSelectLate v x) := by
  have hchannel := ha.channel
  rw [hpc] at hchannel
  obtain ⟨w, hw, hidle⟩ := hchannel
  cases hv.symm.trans hw
  have hearly : s.consumer.pc.early = false := by
    rw [hpc]
    rfl
  have hgone : ∀ e, s.consumer.pc ≠ .failed e := by
    rw [hpc]
    exact fun e h0 => (nomatch h0)
  refine ha.reads hconverged rfl rfl ⟨_, rfl, Or.inl ?_⟩ ?_ ha.exchanges ha.mapped rfl hearly rfl
    hgone (fun e h0 => (nomatch h0))
  · obtain ⟨hrung, ⟨hnoted, hup, hquiet⟩ | ⟨hdown, hup, hwaits⟩⟩ := hidle
    · refine ⟨hrung, Or.inl ⟨hnoted, ?_, hquiet⟩⟩
      show s.channel.up ++ [Up.selection [x]] = _
      rw [hup]
      rfl
    · refine ⟨hrung, Or.inr ⟨hdown, ?_, hwaits⟩⟩
      show s.channel.up ++ [Up.selection [x]] = _
      rw [hup]
      rfl
  · obtain ⟨-, ⟨-, hup, hquiet⟩ | ⟨-, hup, hwaits⟩⟩ := hidle
    · refine Or.inr (Or.inr ⟨hquiet.1, Or.inr ⟨x, ?_⟩, fun h0 => absurd hquiet.2 h0⟩)
      show s.channel.up ++ [Up.selection [x]] = _
      rw [hup]
      rfl
    · rcases hwaits with hwaits | hg
      · refine Or.inr (Or.inl ⟨hwaits, Or.inr ⟨[.selection [x]], ?_, Or.inr ⟨x, rfl⟩⟩⟩)
        show s.channel.up ++ [Up.selection [x]] = _
        rw [hup]
        rfl
      · exact Or.inl hg

/-- `Tracks::select` reads a notice, or its answer. -/
lemma Answered.read {v : Tracks} {x : Selected} (hanswered : Answered decode s v x)
    {message : Down} {down : List Down} (hdown : s.channel.down = message :: down) :
    (∃ n, message = .notice n ∧ ∀ s' : System, s'.host = s.host → s'.channel.up = s.channel.up →
      s'.channel.down = down → ∀ v', v.apply n = .ok v' → Answered decode s' v' x) ∨
    ∃ refusal, message = .admitted [⟨x.id, refusal⟩] ∧
      Answers decode s.host v.doorbell (v.expects x.id refusal) down := by
  obtain ⟨hup, notices, refusal, tracks, rest, hsplit, hreplay, hanswers⟩ := hanswered
  rw [hdown] at hsplit
  cases notices with
  | nil =>
      obtain ⟨rfl, rfl⟩ := List.cons.inj hsplit
      cases hreplay
      exact Or.inr ⟨refusal, rfl, hanswers⟩
  | cons n notices =>
      obtain ⟨rfl, rfl⟩ := List.cons.inj hsplit
      refine Or.inl ⟨n, rfl, fun s' hhost hup' hdown' v' happly => ?_⟩
      obtain ⟨hbell, hafter⟩ := Tracks.apply_doorbell happly
      rw [replay, hafter, Option.bind_some] at hreplay
      refine ⟨hup'.trans hup, notices, refusal, tracks, rest, hdown', hreplay, ?_⟩
      rw [hbell, hhost]
      exact hanswers

/-- `Tracks::select` reads a message. -/
lemma Agreed.onAnswered (ha : Agreed decode base s) {v : Tracks} {x : Selected}
    (hv : s.consumer.view = some v) (hpc : s.consumer.pc = .lateSelecting x)
    (hs : s.onAnswered v x = some s') (hconverged : Converged base s') :
    Agreed decode base s' := by
  have hchannel := ha.channel
  rw [hpc] at hchannel
  obtain ⟨w, hw, hwaits⟩ := hchannel
  cases hv.symm.trans hw
  have hearly : s.consumer.pc.early = false := by
    rw [hpc]
    rfl
  have hgone : ∀ e, s.consumer.pc ≠ .failed e := by
    rw [hpc]
    exact fun e h0 => (nomatch h0)
  -- the next message is a notice, or the answer to this selection
  have hnext : ∀ message down, s.channel.down = message :: down →
      (∃ n, message = .notice n ∧ ∀ v', v.apply n = .ok v' →
        Idle (s.readChannel down v') v'.doorbell [.selection [x]] ∨
          Answered decode (s.readChannel down v') v' x) ∨
      ∃ refusal, message = .admitted [⟨x.id, refusal⟩] ∧ s.channel.up = [] ∧
        Answers decode s.host v.doorbell (v.expects x.id refusal) down := by
    intro message down hdown
    rcases hwaits with hidle | hanswered
    · obtain ⟨⟨n, rfl⟩, -⟩ := hidle.read (s.readChannel down v) hdown rfl rfl rfl
      refine Or.inl ⟨n, rfl, fun v' happly => Or.inl ?_⟩
      rw [(Tracks.apply_doorbell happly).1]
      exact (hidle.read (s.readChannel down v') hdown rfl rfl rfl).2
    · rcases hanswered.read hdown with ⟨n, rfl, hread⟩ | ⟨refusal, rfl, hanswers⟩
      · exact Or.inl ⟨n, rfl, fun v' happly => Or.inr
          (hread (s.readChannel down v') rfl rfl rfl v' happly)⟩
      · exact Or.inr ⟨refusal, rfl, hanswered.1, hanswers⟩
  unfold System.onAnswered at hs
  split at hs
  · cases hs
  · rename_i n down hdown
    split at hs
    · rename_i v' happly
      cases hs
      rcases hnext _ _ hdown with ⟨n', heq, hread⟩ | ⟨refusal, heq, -⟩
      · cases heq
        refine ha.reads hconverged rfl rfl ?_ (ha.channelUp.congr rfl rfl) ha.exchanges ha.mapped
          rfl hearly hearly hgone hgone
        show Channel decode _ s.consumer.pc
        rw [hpc]
        exact ⟨v', rfl, hread v' happly⟩
      · cases heq
    · rename_i error happly
      cases hs
      cases Tracks.apply_error happly
      exact absurd rfl hconverged.reading.matched
  · rename_i a down hdown
    rcases hnext _ _ hdown with ⟨n', heq, -⟩ | ⟨refusal, heq, hup, hanswers⟩
    · cases heq
    · cases heq
      rw [if_pos rfl] at hs
      cases hs
      by_cases hroles : (v.expects x.id refusal).roles = []
      · rw [if_pos hroles] at hconverged ⊢
        refine ha.reads hconverged rfl rfl ⟨v, rfl, ?_⟩ (ha.channelUp.congr rfl rfl) ha.exchanges
          ha.mapped rfl hearly rfl hgone (fun e h0 => (nomatch h0))
        rcases hanswers with ⟨-, hnoted, hquiet, hrung⟩ | ⟨hsome, -⟩ | ⟨hsome, -⟩
        · exact ⟨hrung, Or.inl ⟨hnoted, hup, hquiet⟩⟩
        · exact absurd hroles hsome
        · exact absurd hroles hsome
      · rw [if_neg hroles] at hconverged ⊢
        cases refusal with
        | some r => exact absurd (roles_refused v.doorbell v.tracks x.id r) hroles
        | none =>
            exact ha.reads hconverged rfl rfl ⟨v, rfl, hup, hroles, hanswers⟩
              (ha.channelUp.congr rfl rfl) ha.exchanges ha.mapped rfl hearly rfl hgone
              (fun e h0 => (nomatch h0))
  · rename_i admissions down hnot hdown
    rcases hnext _ _ hdown with ⟨n', heq, -⟩ | ⟨refusal, heq, -⟩
    · cases heq
    · cases heq
      exact absurd rfl (hnot _)
  · rename_i message down hnotice hsingle hadmitted hdown
    rcases hnext _ _ hdown with ⟨n', heq, -⟩ | ⟨refusal, heq, -⟩
    · exact absurd heq (hnotice _)
    · exact absurd heq (hadmitted _)

/-- `receive_rings` of `Tracks::select`. -/
lemma Agreed.receiveLate (ha : Agreed decode base s) {v : Tracks} {x : Selected}
    (hv : s.consumer.view = some v) (hpc : s.consumer.pc = .lateReceiving x)
    (hs : s.receiveLate decode v x = some s') (hconverged : Converged base s') :
    Agreed decode base s' := by
  have hchannel := ha.channel
  rw [hpc] at hchannel
  obtain ⟨w, hw, hup, hroles, hanswers⟩ := hchannel
  cases hv.symm.trans hw
  have hearly : s.consumer.pc.early = false := by
    rw [hpc]
    rfl
  have hgone : ∀ e, s.consumer.pc ≠ .failed e := by
    rw [hpc]
    exact fun e h0 => (nomatch h0)
  rcases hanswers with ⟨hnone, -⟩ | ⟨-, hdown, -⟩ | ⟨-, objects, hdown, hdelivers, hrest⟩
  · exact absurd hnone hroles
  · unfold System.receiveLate at hs
    rw [hdown] at hs
    cases hs
  · obtain ⟨mapped, hmapped, hright⟩ := hdelivers.receiveRings
    unfold System.receiveLate at hs
    rw [hdown] at hs
    dsimp only at hs
    rw [hmapped] at hs
    cases hs
    refine ha.reads hconverged rfl rfl ⟨_, rfl, ?_⟩ ?_ (exchanges_append ha.exchanges
      hdelivers.roles) (fun m hm => ?_) rfl hearly rfl hgone (fun e h0 => (nomatch h0))
    · have hsent : s.channel.up ++ [Up.receipt] = [.receipt] := by
        rw [hup]
        rfl
      rcases hrest with hg | ⟨hwaits, hbell⟩
      · exact ⟨Or.inl hg, Or.inr ⟨rfl, hsent, Or.inr hg⟩⟩
      · exact ⟨Or.inr hbell, Or.inr ⟨rfl, hsent, Or.inl hwaits⟩⟩
    · rcases hrest with hg | ⟨hwaits, -⟩
      · exact Or.inl hg
      · refine Or.inr (Or.inl ⟨hwaits, Or.inr ⟨[], ?_, Or.inl rfl⟩⟩)
        show s.channel.up ++ [Up.receipt] = _
        rw [hup]
        rfl
    · rcases List.mem_append.mp hm with hm | hm
      · exact ha.mapped m hm
      · exact hright m hm

/-! ### Runs -/

lemma Owned.sent {l : SystemLabel} (hown : Owned s l) : Sent s l := by
  cases l with
  | readSelection w => trivial
  | serve w => trivial
  | _ => exact hown

/-- `accept` goes on after an acknowledgement. -/
lemma Agreed.acknowledged (ha : Agreed decode base s) {pc : HostPc}
    (hpc : (∃ todo, s.host.pc = .channelReceipt todo ∧ pc = .channels todo) ∨
      s.host.pc = .ringsReceipt ∧ pc = .attached)
    (hs : s.mediaReceipt pc = some s') (hconverged : Converged base s') :
    Agreed decode base s' := by
  have hstock := ha.stocked
  have hclaimed := hstock.claimed
  rcases hpc with ⟨todo, hpc, rfl⟩ | ⟨hpc, rfl⟩
  · have hgone := not_gone hpc (by rintro _ ⟨⟩)
    have hne : s.host.pc ≠ .selecting := fun h0 => by cases hpc.symm.trans h0
    have hbell : owedBell { s.host with pc := .channels todo } = owedBell s.host := by
      rw [owedBell, owedBell, hpc]
      rfl
    have howed : owed { s.host with pc := .channels todo } = owed s.host := by
      rw [owed, owed, hpc]
      rfl
    have hdebt : debt { s.host with pc := .channels todo } = debt s.host := by
      rw [debt, debt, hpc]
    rw [hpc] at hclaimed
    have hmedia : SameMedia s.host { s.host with pc := .channels todo } :=
      ⟨fun hg => absurd hg hgone, Or.inr hbell, Or.inr howed, fun h0 => absurd h0 hne,
        (by rintro ⟨⟩)⟩
    have hchannel : SameChannel s.host { s.host with pc := .channels todo } :=
      ⟨fun hg => absurd hg hgone, Or.inr hbell, Or.inr hdebt,
        fun h0 => (by cases hpc.symm.trans h0), by rintro ⟨⟩⟩
    have hstocked : Stocked decode base { s.host with pc := .channels todo } :=
      ⟨hstock.offer, hstock.ids, hstock.rings, by rintro ⟨⟩, hclaimed,
        (by rintro ⟨⟩), trivial⟩
    exact ha.mediaReceipt hgone hne hmedia hchannel hstocked hs hconverged
  · have hgone := not_gone hpc (by rintro _ ⟨⟩)
    have hne : s.host.pc ≠ .selecting := fun h0 => by cases hpc.symm.trans h0
    have hbell : owedBell { s.host with pc := .attached } = owedBell s.host := by
      rw [owedBell, owedBell, hpc]
    have howed : owed { s.host with pc := .attached } = owed s.host := by
      rw [owed, owed, hpc]
    have hdebt : debt { s.host with pc := .attached } = debt s.host := by
      rw [debt, debt, hpc]
    have hmedia : SameMedia s.host { s.host with pc := .attached } :=
      ⟨fun hg => absurd hg hgone, Or.inr hbell, Or.inr howed, fun h0 => absurd h0 hne,
        (by rintro ⟨⟩)⟩
    have hchannel : SameChannel s.host { s.host with pc := .attached } :=
      ⟨fun hg => absurd hg hgone, Or.inr hbell, Or.inr hdebt,
        fun h0 => (by cases hpc.symm.trans h0), by rintro ⟨⟩⟩
    have hstocked : Stocked decode base { s.host with pc := .attached } :=
      ⟨hstock.offer, hstock.ids, hstock.rings, by rintro ⟨⟩, trivial,
        (by rintro ⟨⟩), trivial⟩
    exact ha.mediaReceipt hgone hne hmedia hchannel hstocked hs hconverged

/-- **Every step keeps the two sides in agreement.** -/
theorem Agreed.step (ha : Agreed decode base s) (hids : (base.map (·.id)).Nodup)
    {l : SystemLabel} (hown : Owned s l) (hs : s.step decode l = some s') :
    Agreed decode base s' := by
  have hconverged := ha.converged.step hown.sent hs
  have hstep := hs
  cases l with
  | readSelection w =>
      simp only [System.step] at hs
      split at hs
      · rename_i selection up hpc hup
        cases hs
        exact ha.onSelection hpc hup hstep (hown selection up hup)
      · rename_i up hpc hup
        rcases ha.mediaUp with ⟨-, hempty | ⟨hsent, -⟩⟩ | ⟨e, hg⟩ | ⟨hne, -⟩
        · cases hup.symm.trans hempty
        · cases hup.symm.trans hsent
        · cases hpc.symm.trans hg
        · exact absurd hpc hne
      · cases hs
  | pass w =>
      simp only [System.step, System.onPass] at hs
      split at hs
      · rename_i todo hpc
        cases hs
        exact ha.passMedia hpc hconverged
      · rename_i id hpc
        cases hs
        exact ha.passLate hpc hconverged
      · cases hs
  | receipt =>
      simp only [System.step, System.onReceipt] at hs
      split at hs
      · rename_i todo hpc
        exact ha.acknowledged (Or.inl ⟨todo, hpc, rfl⟩) hs hconverged
      · rename_i hpc
        exact ha.acknowledged (Or.inr ⟨hpc, rfl⟩) hs hconverged
      · rename_i hpc
        exact ha.channelReceipt hpc hs hconverged
      · cases hs
  | add track ring sent =>
      simp only [System.step] at hs
      split_ifs at hs with hpc
      cases hs
      cases hown
      exact ha.announce hpc (fun n' notice hx => Notices.add_keeps hx) hconverged
  | update track sent =>
      simp only [System.step] at hs
      split_ifs at hs with hpc
      cases hs
      cases hown
      exact ha.announce hpc (fun n' notice hx => Notices.update_keeps hx) hconverged
  | remove id sent =>
      simp only [System.step] at hs
      split_ifs at hs with hpc
      cases hs
      cases hown
      exact ha.announce hpc (fun n' notice hx => Notices.remove_keeps hx) hconverged
  | serve w =>
      simp only [System.step] at hs
      split_ifs at hs with hpc
      exact ha.onServe hpc hown hs hconverged
  | hostLeaves =>
      simp only [System.step] at hs
      split at hs
      · cases hs
      · cases hs
        exact ha.hostFails (Or.inl rfl)
  | connect =>
      simp only [System.step] at hs
      split_ifs at hs with hpc
      exact ha.onConnect hids hpc hs hconverged
  | select selection =>
      simp only [System.step] at hs
      split_ifs at hs with hpc
      cases hs
      exact ha.onSelect hpc hconverged
  | admitted =>
      simp only [System.step] at hs
      split_ifs at hs with hpc
      exact ha.onAdmitted hpc hs hconverged
  | receive =>
      simp only [System.step, System.onReceive] at hs
      split at hs
      · rename_i role todo hpc
        exact ha.receiveChannel hpc hs hconverged
      · rename_i hpc
        exact ha.receiveMedia hpc hs hconverged
      · rename_i x v hpc hv
        exact ha.receiveLate hv hpc hs hconverged
      · cases hs
  | join connected =>
      simp only [System.step] at hs
      split_ifs at hs with hpc
      cases hs
      exact ha.onJoin hpc hconverged
  | next =>
      simp only [System.step] at hs
      split at hs
      · rename_i v hpc hv
        exact ha.onNext hv hpc hs hconverged
      · cases hs
  | selectLate x =>
      simp only [System.step] at hs
      split at hs
      · rename_i v hpc hv
        cases hs
        exact ha.onSelectLate hv hpc hconverged
      · cases hs
  | answered =>
      simp only [System.step] at hs
      split at hs
      · rename_i x v hpc hv
        exact ha.onAnswered hv hpc hs hconverged
      · cases hs
  | consumerLeaves =>
      simp only [System.step] at hs
      split at hs
      · cases hs
      · cases hs
        exact ha.fails (by simp [mismatch]) (Or.inl rfl)

/-- The offer has been written. -/
lemma Agreed.accept {offer : List Track} {playback : List Playback}
    (hvalid : validOffer decode offer playback = true) (target : Bool) :
    Agreed decode offer (System.accept offer target playback) := by
  have hids := validOffer_nodup hvalid
  refine ⟨.accept hids target playback, ⟨rfl, hids, fun t ht haudio => ?_, fun _ => hvalid, trivial,
    fun _ => rfl, trivial⟩, ⟨rfl, Or.inl rfl⟩, Or.inl ⟨rfl, Or.inl rfl⟩,
    ⟨⟨[], rfl⟩, rfl, fun h0 => (nomatch h0), rfl⟩,
    Or.inr (Or.inr ⟨fun h0 => (nomatch h0), Or.inl rfl, fun _ => rfl⟩),
    fun x hx => (nomatch hx), fun m hm => (nomatch hm), trivial, fun _ _ => rfl⟩
  obtain ⟨p, hp, howns, -⟩ := offerable_ring (validOffer_offerable hvalid ht) haudio
  exact ⟨p, hp, howns⟩

/-- The objects that the consumer waits for, from its own offer and admissions. -/
def Consumer.waits (c : Consumer) : Option (List Role) :=
  match c.pc, c.view with
  | .channels (role :: _), _ => some [role]
  | .rings, _ => some (System.mediaExpects c).roles
  | .lateReceiving x, some v => some (v.expects x.id none).roles
  | _, _ => none

/-- The stream that the consumer reads. -/
def System.incoming (s : System) : List Down :=
  if s.consumer.pc.early then s.media.down else s.channel.down

/-- A transfer of the handshake comes next, or is still to be made. -/
lemma Owes.next {down : List Down} {todo : List Role} {e : Expected}
    (ho : Owes decode h down todo e) : ∃ transfers, Meets decode transfers todo e ∧
      (∀ message rest, down = message :: rest →
        ∃ objects others, message = .objects objects ∧ transfers = objects :: others) ∧
      (h.pc = .attached → down = [] → transfers = []) := by
  obtain ⟨hne, transfers, rest, hdown, hmeets, howed⟩ := ho
  refine ⟨transfers ++ rest, hmeets, fun message others hfirst => ?_, fun hpc hempty => ?_⟩
  · rw [hdown] at hfirst
    cases transfers with
    | nil => cases hfirst
    | cons objects transfers =>
        obtain ⟨rfl, -⟩ := List.cons.inj hfirst
        exact ⟨objects, transfers ++ rest, rfl, rfl⟩
  · rw [hempty] at hdown
    have hnone : transfers = [] := List.map_eq_nil_iff.mp hdown.symm
    rcases howed with hg | ⟨rfl, -⟩
    · exact absurd hg (not_gone hpc fun _ h0 => (nomatch h0))
    · rw [hnone, owed_eq_nil (Or.inr (Or.inl hpc))]
      rfl

/-- **What comes is what the consumer waits for.** -/
lemma Agreed.incoming (ha : Agreed decode base s) {roles : List Role}
    (hwaits : s.consumer.waits = some roles) :
    (∀ message down, s.incoming = message :: down →
      ∃ objects, message = .objects objects ∧ objects.map Object.role = roles) ∧
    (s.host.pc = .attached → s.incoming ≠ []) := by
  have hmedia := ha.media
  have hchannel := ha.channel
  rw [System.incoming]
  unfold Consumer.waits at hwaits
  split at hwaits
  · rename_i role todo hpc
    cases hwaits
    rw [hpc] at hmedia ⊢
    obtain ⟨transfers, hmeets, hcomes, hdone⟩ := Owes.next hmedia
    obtain ⟨o, others, hfirst, hrole, -⟩ := hmeets.head
    refine ⟨fun message down hdown => ?_, fun hattached hempty => ?_⟩
    · obtain ⟨objects, rest, rfl, hsplit⟩ := hcomes message down hdown
      cases hfirst.symm.trans hsplit
      exact ⟨[o], rfl, congrArg (fun r => [r]) hrole⟩
    · cases hfirst.symm.trans (hdone hattached hempty)
  · rename_i hpc
    cases hwaits
    rw [hpc] at hmedia ⊢
    obtain ⟨transfers, hmeets, hcomes, hdone⟩ := Owes.next hmedia.1
    obtain ⟨-, objects, hfirst, hdelivers⟩ := hmeets.last.resolve_left fun h0 => hmedia.2 h0.1
    refine ⟨fun message down hdown => ?_, fun hattached hempty => ?_⟩
    · obtain ⟨objects', rest, rfl, hsplit⟩ := hcomes message down hdown
      cases hfirst.symm.trans hsplit
      exact ⟨objects, rfl, hdelivers.roles⟩
    · cases hfirst.symm.trans (hdone hattached hempty)
  · rename_i x v hpc hv
    cases hwaits
    rw [hpc] at hchannel ⊢
    obtain ⟨v', hv', -, hroles, hanswers⟩ := hchannel
    cases hv.symm.trans hv'
    refine ⟨fun message down hdown => ?_, fun hattached _ => hroles (hanswers.attached hattached).1⟩
    have hdown : s.channel.down = message :: down := hdown
    rcases hanswers with ⟨hnone, -⟩ | ⟨-, hempty, -⟩ | ⟨-, objects, hobjects, hdelivers, -⟩
    · exact absurd hnone hroles
    · cases hdown.symm.trans hempty
    · cases hdown.symm.trans hobjects
      exact ⟨objects, rfl, hdelivers.roles⟩
  · cases hwaits

/-- Between two calls nothing but notices is on its way. -/
lemma Agreed.read (ha : Agreed decode base s) (hpc : s.consumer.pc = .attached) :
    s.media.down = [] ∧ ∀ message ∈ s.channel.down, ∃ n, message = .notice n := by
  have hmedia := ha.media
  have hchannel := ha.channel
  rw [hpc] at hmedia hchannel
  refine ⟨hmedia.1, fun message hm => ?_⟩
  obtain ⟨v, -, -, ⟨⟨notices, hnotices⟩, -⟩ | ⟨hempty, -⟩⟩ := hchannel
  · rw [hnotices] at hm
    obtain ⟨n, -, rfl⟩ := List.mem_map.mp hm
    exact ⟨n, rfl⟩
  · rw [hempty] at hm
    cases hm

/-- **The two sides agree on every transfer.** For every offer and every rings that `accept`
admits, and every run of the two sides in which the host has just the rings of its tracks, and
in which a `select` or `next` that fails or times out is the last call on its handle:

* what comes where the consumer waits for objects are the objects that it waits for, and
  they have been passed when the host returns; so it is for those that it has received;
* every ring is mapped as the ring of its track, with the access of its kind;
* the host ends for an error of the system or a refusal, and so does the consumer, unless
  it was given a selection that is none or could not connect its input;
* a consumer that has returned has read every object. -/
theorem transfers_agree {offer : List Track} {target : Bool} {playback : List Playback}
    (hvalid : validOffer decode offer playback = true) {s : System}
    (hreach : Reaches (System.step decode) Owned (System.accept offer target playback) s) :
    (∀ roles, s.consumer.waits = some roles →
      (∀ message down, s.incoming = message :: down →
        ∃ objects, message = .objects objects ∧ objects.map Object.role = roles) ∧
      (s.host.pc = .attached → s.incoming ≠ [])) ∧
    (∀ x ∈ s.consumer.exchanges, x.received.map Object.role = x.expected) ∧
    (∀ m ∈ s.consumer.mapped, m.Right) ∧
    (∀ e, s.host.pc = .failed e → e = .io ∨ ∃ id r, e = .refused id r) ∧
    (∀ e, s.consumer.pc = .failed e → e = .io ∨ e = .input ∨
      e = .argument "invalid selection" ∨ ∃ id r, e = .refused id r) ∧
    (s.consumer.pc = .attached →
      s.media.down = [] ∧ ∀ message ∈ s.channel.down, ∃ n, message = .notice n) := by
  have hids := validOffer_nodup hvalid
  have ha : Agreed decode offer s := hreach.invariant (.accept hvalid target)
    fun _ _ _ hp hc hs => hp.step hids hc hs
  refine ⟨fun roles hwaits => ha.incoming hwaits, ha.exchanges, ha.mapped, fun e he => ?_,
    fun e he => ?_, fun hpc => ha.read hpc⟩
  · have hfair := ha.stocked.fair
    rw [he] at hfair
    exact hfair
  · have hfair := ha.fair
    rw [he] at hfair
    exact hfair

/-- The check of `Owned`. -/
def owns (s : System) : SystemLabel → Bool
  | .readSelection w =>
      match s.media.up with
      | .selection selection :: _ =>
          (audioTracks s.host.offer
            (answerSelection w s.host.offer s.host.target s.host.notices.playback selection []).1).all
            fun x => (s.host.notices.playback.find? fun p => p.id == x.2.id).all fun p =>
              p.recording == decide (x.2.kind = .recording)
      | _ => true
  | .serve w =>
      match s.channel.up with
      | .selection [x] :: _ => (s.host.notices.lateRefusal w x).1.isSome ||
          s.host.notices.tracks.all fun t => t.id != x.id ||
            decide ((s.host.notices.playback.filter fun p => p.id == t.id).map (·.recording) =
              if t.kind.audio then [decide (t.kind = .recording)] else [])
      | _ => true
  | l => sends s l

lemma owned_of_owns {l : SystemLabel} (h : owns s l = true) : Owned s l := by
  cases l with
  | readSelection w =>
      intro selection up hup x hx p hp
      rw [owns, hup] at h
      have hring := List.all_eq_true.mp h x hx
      rw [hp] at hring
      simpa using hring
  | serve w =>
      intro x up hup hnone t ht hid
      rw [owns, hup] at h
      dsimp only at h
      rw [hnone, Option.isSome_none, Bool.false_or] at h
      have hrings := List.all_eq_true.mp h t ht
      rw [Track.OwnRings, hid]
      simpa [hid] using hrings
  | add track ring sent => exact h
  | update track sent => exact h
  | remove id sent => exact h
  | _ => trivial

/-- A track is selected in the handshake, and one of another kind later. -/
def twoTracks : List SystemLabel :=
  [.connect, .select [{ id := 1 }], .readSelection {}, .admitted, .pass {}, .receive, .receipt, .pass {},
    .receive, .receipt, .join true,
    .add { id := 2, kind := .recording, direction := .toSource }
      (some { monoRing 2 with recording := true }) true,
    .selectLate { id := 2, write := true }, .answered, .serve {}, .answered, .pass {}, .receive,
    .receipt]

theorem transfers_agree_twoTracks : ∃ s,
    execIn (System.step monoDescriptor) owns
      (System.accept [monoTrack 1] false [monoRing 1]) twoTracks = some s ∧
    (s.consumer.exchanges.length = 3 ∧ s.consumer.mapped.map (·.writable) = [false, true]) ∧
    (∀ roles, s.consumer.waits = some roles →
      (∀ message down, s.incoming = message :: down →
        ∃ objects, message = .objects objects ∧ objects.map Object.role = roles) ∧
      (s.host.pc = .attached → s.incoming ≠ [])) ∧
    (∀ x ∈ s.consumer.exchanges, x.received.map Object.role = x.expected) ∧
    (∀ m ∈ s.consumer.mapped, m.Right) ∧
    (∀ e, s.host.pc = .failed e → e = .io ∨ ∃ id r, e = .refused id r) ∧
    (∀ e, s.consumer.pc = .failed e → e = .io ∨ e = .input ∨
      e = .argument "invalid selection" ∨ ∃ id r, e = .refused id r) ∧
    (s.consumer.pc = .attached →
      s.media.down = [] ∧ ∀ message ∈ s.channel.down, ∃ n, message = .notice n) := by
  obtain ⟨s, hs⟩ : ∃ s, execIn (System.step monoDescriptor) owns
      (System.accept [monoTrack 1] false [monoRing 1]) twoTracks = some s :=
    Option.isSome_iff_exists.mp (by decide +kernel)
  have hfacts : (execIn (System.step monoDescriptor) owns
      (System.accept [monoTrack 1] false [monoRing 1]) twoTracks).all (fun s => decide
        (s.consumer.exchanges.length = 3 ∧ s.consumer.mapped.map (·.writable) = [false, true])) =
      true := by
    decide +kernel
  rw [hs] at hfacts
  have hreach : Reaches (System.step monoDescriptor) Owned
      (System.accept [monoTrack 1] false [monoRing 1]) s :=
    Reaches.of_execIn (fun _ _ h => owned_of_owns h) hs
  exact ⟨s, hs, of_decide_eq_true hfacts, transfers_agree (by decide) hreach⟩

/-- A ring that `accept` was given is given again with its track. -/
def strayRing : List SystemLabel :=
  attaching ++ [SystemLabel.add (monoTrack 1) (some (monoRing 1)) true,
    .selectLate { id := 1 }, .answered, .serve {}, .answered, .pass {}]

/-- **A ring in hand twice.** `accept` admits a ring without a track; when the track is added
with the ring, `serve` passes both, and the consumer waits for one. It takes the transfer
for an error. -/
theorem transfers_disagree : validOffer monoDescriptor [] [monoRing 1] = true ∧
    ∃ s s', Reaches (System.step monoDescriptor) Sent (System.accept [] false [monoRing 1]) s ∧
      s.consumer.waits = some [.page, .wake, .ring 1 false] ∧
      s.incoming = [.objects [.page, .wake, .ring (monoRing 1), .ring (monoRing 1)]] ∧
      s.step monoDescriptor .receive = some s' ∧ s'.consumer.pc = .failed .transfer := by
  refine ⟨by decide, ?_⟩
  obtain ⟨s, hs⟩ : ∃ s, execIn (System.step monoDescriptor) sends
      (System.accept [] false [monoRing 1]) strayRing = some s :=
    Option.isSome_iff_exists.mp (by decide +kernel)
  have hfacts : (execIn (System.step monoDescriptor) sends
      (System.accept [] false [monoRing 1]) strayRing).all (fun s =>
        decide (s.consumer.waits = some [.page, .wake, .ring 1 false] ∧
        s.incoming = [.objects [.page, .wake, .ring (monoRing 1), .ring (monoRing 1)]]) &&
        (s.step monoDescriptor .receive).any fun s' =>
          decide (s'.consumer.pc = .failed .transfer)) = true := by
    decide +kernel
  rw [hs] at hfacts
  obtain ⟨hstate, hnext⟩ := Bool.and_eq_true_iff.mp hfacts
  obtain ⟨hwaits, hcomes⟩ := of_decide_eq_true hstate
  obtain ⟨s', hs', hfailed⟩ := (Option.any_eq_true _ _).mp hnext
  exact ⟨s, s', Reaches.of_execIn (fun _ _ h => sent_of_sends h) hs, hwaits, hcomes, hs',
    of_decide_eq_true hfailed⟩

end Jackstay.Handshake
