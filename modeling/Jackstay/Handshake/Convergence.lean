import Jackstay.Handshake.Listing

/-!
The lists of tracks of the two sides converge.

* `Numbering`: the late selections that the host has answered are the first of those that
  the consumer has made, with the same positions.
* `Converged`: that, and the lists of the two sides.
* `tracks_converge`: every run whose notices are sent.
-/

namespace Jackstay.Handshake

open Transition

variable {decode : List UInt8 → Option Audio.Descriptor} {base : List Track} {s s' : System}
  {n n' : Notices} {notice : Notice}

/-! ### Positions -/

/-- The entries have consecutive positions, from `first` on. -/
def Consecutive (first : ℕ) (xs : List (ℕ × ℕ)) : Prop := ∀ k x, xs[k]? = some x → x.2 = first + k

lemma Consecutive.append {first : ℕ} {xs : List (ℕ × ℕ)} (h : Consecutive first xs) (id : ℕ) :
    Consecutive first (xs ++ [(id, first + xs.length)]) := by
  intro k x hk
  rcases Nat.lt_or_ge k xs.length with hlt | hge
  · rw [List.getElem?_append_left hlt] at hk
    exact h k x hk
  · rw [List.getElem?_append_right hge] at hk
    have hlt : k - xs.length < 1 := (List.getElem?_eq_some_iff.mp hk).1
    have hend : k = xs.length := by omega
    rw [hend, Nat.sub_self] at hk
    cases hk
    rw [hend]

/-- The ids of the late selections on their way. -/
def lateIds (up : List Up) : List ℕ :=
  up.filterMap fun u =>
    match u with
    | .selection [x] => some x.id
    | _ => none

/-- **The two sides number the late selections in the same way.** -/
structure Numbering (s : System) : Prop where
  early : s.consumer.pc = .connecting ∨ s.consumer.pc = .offered →
    s.media.up = [] ∧ s.consumer.selections = [] ∧ s.host.answers = [] ∧
      (s.host.pc = .selecting ∨ ∃ e, s.host.pc = .failed e)
  selected : ∀ tracks, .selection tracks ∈ s.media.up → tracks = s.consumer.selection
  selecting : s.host.pc = .selecting → s.host.answers = []
  positions : s.host.pc = .selecting ∨ (∃ e, s.host.pc = .failed e) ∨
    s.host.notices.positions = s.consumer.selection.length + s.host.answers.length
  answers : Consecutive s.consumer.selection.length s.host.answers
  selections : Consecutive s.consumer.selection.length s.consumer.selections
  ids : s.consumer.selections.map Prod.fst = s.host.answers.map Prod.fst ++ lateIds s.channel.up
  singles : ∀ tracks, .selection tracks ∈ s.channel.up → ∃ x, tracks = [x]
  view : ∀ v, s.consumer.view = some v →
    v.positions = s.consumer.selection.length + s.consumer.selections.length
  unseen : s.consumer.view = none → s.consumer.selections = []

lemma answerSelection_length (w : World) (offer : List Track) (target : Bool) (playback : List Playback)
    (selection : List Selected) (leases : List Playback) :
    (answerSelection w offer target playback selection leases).1.length = selection.length := by
  induction selection generalizing leases with
  | nil => rfl
  | cons s selection ih =>
      show (_ :: (answerSelection w offer target playback selection _).1).length = _
      rw [List.length_cons, ih]
      rfl

/-- A host that has gone. -/
lemma Numbering.hostFails (h : Numbering s) (error : Error) :
    Numbering (s.hostAt (.failed error)) := by
  refine ⟨fun hpc => ?_, h.selected, fun h0 => (nomatch h0), Or.inr (Or.inl ⟨error, rfl⟩),
    h.answers, h.selections, h.ids, h.singles, h.view, h.unseen⟩
  obtain ⟨hup, hselections, hanswers, -⟩ := h.early hpc
  exact ⟨hup, hselections, hanswers, Or.inr ⟨error, rfl⟩⟩

/-- A step of the host on the media stream, after the selection. -/
lemma Numbering.aside (h : Numbering s) (ha : Aside s s')
    (hpositions : s'.host.notices.positions = s.host.notices.positions)
    (hup : ∀ tracks, .selection tracks ∈ s'.media.up → .selection tracks ∈ s.media.up)
    (hpc : s.host.pc ≠ .selecting ∧ ∀ e, s.host.pc ≠ .failed e)
    (hpc' : s'.host.pc ≠ .selecting) : Numbering s' := by
  have hpast : s.host.notices.positions =
      s.consumer.selection.length + s.host.answers.length := by
    rcases h.positions with h0 | ⟨e, h0⟩ | h0
    · exact absurd h0 hpc.1
    · exact absurd h0 (hpc.2 e)
    · exact h0
  refine ⟨fun hearly => ?_, fun ts hts => ?_, fun h0 => absurd h0 hpc', Or.inr (Or.inr ?_), ?_, ?_,
    ?_, ?_, ?_, ?_⟩
  · rw [ha.consumer] at hearly
    obtain ⟨-, -, -, h0 | ⟨e, h0⟩⟩ := h.early hearly
    · exact absurd h0 hpc.1
    · exact absurd h0 (hpc.2 e)
  · rw [ha.consumer]
    exact h.selected ts (hup ts hts)
  · rw [hpositions, ha.consumer, ha.answers]
    exact hpast
  · rw [ha.consumer, ha.answers]
    exact h.answers
  · rw [ha.consumer]
    exact h.selections
  · rw [ha.consumer, ha.answers, ha.channel]
    exact h.ids
  · rw [ha.channel]
    exact h.singles
  · rw [ha.consumer]
    exact h.view
  · rw [ha.consumer]
    exact h.unseen

/-- `accept` answers the selection. -/
lemma Numbering.onSelection (h : Numbering s) (w : World) (hpc : s.host.pc = .selecting)
    {up : List Up} (hup : s.media.up = .selection s.consumer.selection :: up) :
    Numbering (({ s with media := { s.media with up } } : System).onSelection w
      s.consumer.selection) := by
  have hanswers := h.selecting hpc
  have hselected : ∀ ts, .selection ts ∈ up → ts = s.consumer.selection :=
    fun ts hts => h.selected ts (hup ▸ List.mem_cons_of_mem _ hts)
  have hlate : ¬ (s.consumer.pc = .connecting ∨ s.consumer.pc = .offered) := by
    intro h0
    cases hup.symm.trans (h.early h0).1
  have hpopped : Numbering { s with media := { s.media with up } } :=
    ⟨fun h0 => absurd h0 hlate, hselected, h.selecting, h.positions, h.answers, h.selections,
      h.ids, h.singles, h.view, h.unseen⟩
  rw [System.onSelection]
  dsimp only
  split
  · exact hpopped.hostFails _
  split
  · exact ⟨fun h0 => absurd h0 hlate, hselected, by rintro ⟨⟩,
      Or.inr (Or.inl ⟨_, rfl⟩), h.answers, h.selections, h.ids, h.singles, h.view, h.unseen⟩
  · split
    · exact hpopped.hostFails _
    · refine ⟨fun h0 => absurd h0 hlate, hselected, by rintro ⟨⟩, Or.inr (Or.inr ?_),
        h.answers, h.selections, h.ids, h.singles, h.view, h.unseen⟩
      show (answerSelection w _ _ _ s.consumer.selection []).1.length = _ + s.host.answers.length
      rw [answerSelection_length, hanswers]
      rfl

lemma Numbering.passMedia (h : Numbering s) (w : World) {todo : List Object}
    (hpc : s.host.pc = .channels todo) : Numbering (s.passMedia w todo) := by
  have hhost : s.host.pc ≠ .selecting ∧ ∀ e, s.host.pc ≠ .failed e := by
    rw [hpc]
    exact ⟨by rintro ⟨⟩, by rintro _ ⟨⟩⟩
  have haside := Aside.passMedia s w todo
  cases todo with
  | cons o todo =>
      exact h.aside haside rfl (fun _ h0 => h0) hhost (by rintro ⟨⟩)
  | nil =>
      rw [System.passMedia] at haside ⊢
      dsimp only at haside ⊢
      split at haside
      · exact h.hostFails _
      · split_ifs at haside ⊢
        · exact h.aside haside rfl (fun _ h0 => h0) hhost (by rintro ⟨⟩)
        · exact h.aside haside rfl (fun _ h0 => h0) hhost (by rintro ⟨⟩)

lemma Numbering.mediaReceipt (h : Numbering s) {pc : HostPc} (hpc' : pc ≠ .selecting)
    (hpc : s.host.pc ≠ .selecting ∧ ∀ e, s.host.pc ≠ .failed e)
    (hs : s.mediaReceipt pc = some s') : Numbering s' := by
  have haside := Aside.mediaReceipt hs
  unfold System.mediaReceipt at hs
  split at hs
  · cases hs
  · rename_i up hup
    cases hs
    refine h.aside haside rfl (fun ts hts => ?_) hpc hpc'
    rw [hup]
    exact List.mem_cons_of_mem _ hts
  · cases hs
    exact h.hostFails _

/-- A step of the host on the channel that takes no selection. -/
lemma Numbering.host (h : Numbering s) (hmedia : s'.media = s.media)
    (hconsumer : s'.consumer = s.consumer) (hanswers : s'.host.answers = s.host.answers)
    (hids : lateIds s'.channel.up = lateIds s.channel.up)
    (hup : ∀ u ∈ s'.channel.up, u ∈ s.channel.up)
    (hpositions : s'.host.notices.positions = s.host.notices.positions)
    (hpc : s.host.pc ≠ .selecting ∧ ∀ e, s.host.pc ≠ .failed e)
    (hpc' : s'.host.pc ≠ .selecting) : Numbering s' := by
  refine ⟨fun hearly => ?_, fun ts hts => ?_, fun h0 => absurd h0 hpc', Or.inr ?_, ?_, ?_, ?_, ?_,
    ?_, ?_⟩
  · rw [hconsumer] at hearly
    obtain ⟨-, -, -, h0 | ⟨e, h0⟩⟩ := h.early hearly
    · exact absurd h0 hpc.1
    · exact absurd h0 (hpc.2 e)
  · rw [hmedia] at hts
    rw [hconsumer]
    exact h.selected ts hts
  · rw [hpositions, hconsumer, hanswers]
    rcases h.positions with h0 | ⟨e, h0⟩ | h0
    · exact absurd h0 hpc.1
    · exact absurd h0 (hpc.2 e)
    · exact Or.inr h0
  · rw [hconsumer, hanswers]
    exact h.answers
  · rw [hconsumer]
    exact h.selections
  · rw [hconsumer, hanswers, hids]
    exact h.ids
  · exact fun ts hts => h.singles ts (hup _ hts)
  · rw [hconsumer]
    exact h.view
  · rw [hconsumer]
    exact h.unseen

/-- `serve` answers a selection. -/
lemma Numbering.onServe (h : Numbering s) (w : World) (hpc : s.host.pc = .attached)
    (hs : s.onServe w = some s') : Numbering s' := by
  have hpast : s.host.notices.positions =
      s.consumer.selection.length + s.host.answers.length := by
    rcases h.positions with h0 | ⟨e, h0⟩ | h0
    · cases hpc.symm.trans h0
    · cases hpc.symm.trans h0
    · exact h0
  have hlate : ¬ (s.consumer.pc = .connecting ∨ s.consumer.pc = .offered) := by
    intro h0
    obtain ⟨-, -, -, h0 | ⟨e, h0⟩⟩ := h.early h0
    · cases hpc.symm.trans h0
    · cases hpc.symm.trans h0
  unfold System.onServe at hs
  split at hs
  · cases hs
  · rename_i x up hup
    cases hs
    refine ⟨fun h0 => absurd h0 hlate, h.selected, fun h0 => ?_, Or.inr (Or.inr ?_), ?_,
      h.selections, ?_, fun ts hts => ?_, h.view, h.unseen⟩
    · have h0 : (if _ then HostPc.answering x.id else .attached) = .selecting := h0
      split_ifs at h0
    · show s.host.notices.positions + 1 = _ + (s.host.answers ++ [_]).length
      rw [hpast, List.length_append]
      rfl
    · show Consecutive _ (s.host.answers ++ [(x.id, s.host.notices.positions)])
      rw [hpast]
      exact h.answers.append x.id
    · show s.consumer.selections.map Prod.fst = (s.host.answers ++ [_]).map Prod.fst ++ lateIds up
      rw [h.ids, hup, List.map_append, List.append_assoc]
      rfl
    · exact h.singles ts (hup ▸ List.mem_cons_of_mem _ hts)
  · cases hs
    exact h.hostFails _
  · cases hs
    exact h.hostFails _

/-- A step of the consumer on the media stream, after its selection. -/
lemma Numbering.beside (h : Numbering s) (hb : Beside s s') : Numbering s' := by
  refine ⟨fun h0 => ?_, fun ts hts => ?_, ?_, ?_, ?_, ?_, ?_, ?_, ?_, ?_⟩
  · rcases h0 with h0 | h0
    · exact absurd h0 hb.pc.1
    · exact absurd h0 hb.pc.2
  · rw [hb.selection]
    exact h.selected ts (hb.selected ts hts)
  · rw [hb.host]
    exact h.selecting
  · rw [hb.host, hb.selection]
    exact h.positions
  · rw [hb.host, hb.selection]
    exact h.answers
  · rw [hb.selections, hb.selection]
    exact h.selections
  · rw [hb.selections, hb.host, hb.channel]
    exact h.ids
  · rw [hb.channel]
    exact h.singles
  · rw [hb.view, hb.selection, hb.selections]
    exact h.view
  · rw [hb.view, hb.selections]
    exact h.unseen

/-- The consumer gives up. -/
lemma Numbering.fails (h : Numbering s) (error : Error) :
    Numbering (s.consumerAt (.failed error)) := by
  refine ⟨fun h0 => ?_, h.selected, h.selecting, h.positions, h.answers, h.selections, h.ids,
    h.singles, h.view, h.unseen⟩
  rcases h0 with h0 | h0
  · cases h0
  · cases h0

lemma Numbering.onConnect (h : Numbering s) (hpc : s.consumer.pc = .connecting)
    (hs : s.onConnect = some s') : Numbering s' := by
  unfold System.onConnect at hs
  split at hs
  · cases hs
  · split_ifs at hs
    · cases hs
      exact ⟨fun _ => h.early (Or.inl hpc), h.selected, h.selecting, h.positions, h.answers,
        h.selections, h.ids, h.singles, h.view, h.unseen⟩
    · cases hs
      exact h.fails _
  · cases hs
    exact h.fails _

lemma Numbering.onSelect (h : Numbering s) (hview : s.consumer.view = none)
    (hpc : s.consumer.pc = .offered) (selection : List Selected) :
    Numbering (s.onSelect selection) := by
  obtain ⟨hup, hselections, hanswers, hhost⟩ := h.early (Or.inr hpc)
  rw [System.onSelect]
  split_ifs
  · refine ⟨fun h0 => ?_, fun ts hts => ?_, h.selecting, ?_, ?_, ?_, h.ids, h.singles, fun v hv => ?_,
      h.unseen⟩
    · rcases h0 with h0 | h0
      · cases h0
      · cases h0
    · have hts : Up.selection ts ∈ s.media.up ++ [Up.selection selection] := hts
      rw [hup] at hts
      cases List.mem_singleton.mp hts
      rfl
    · rcases hhost with h0 | h0
      · exact Or.inl h0
      · exact Or.inr (Or.inl h0)
    · show Consecutive _ s.host.answers
      rw [hanswers]
      rintro k x ⟨⟩
    · show Consecutive _ s.consumer.selections
      rw [hselections]
      rintro k x ⟨⟩
    · cases hview.symm.trans hv
  · exact h.fails _

lemma Numbering.onJoin (h : Numbering s) (hview : s.consumer.view = none) (connected : Bool) :
    Numbering (s.onJoin connected) := by
  have hselections := h.unseen hview
  rw [System.onJoin]
  split_ifs
  · refine ⟨fun h0 => ?_, h.selected, h.selecting, h.positions, h.answers, h.selections, h.ids,
      h.singles, fun v hv => ?_, by rintro ⟨⟩⟩
    · rcases h0 with h0 | h0
      · cases h0
      · cases h0
    · cases hv
      show s.consumer.selection.length = s.consumer.selection.length + s.consumer.selections.length
      rw [hselections]
      rfl
  · exact h.fails _

/-- A message of the channel has been read. -/
lemma Numbering.read (h : Numbering s) {v v' : Tracks} (hv : s.consumer.view = some v)
    (hhost : s'.host = s.host) (hmedia : s'.media = s.media)
    (hids : lateIds s'.channel.up = lateIds s.channel.up)
    (hup : ∀ ts, .selection ts ∈ s'.channel.up → .selection ts ∈ s.channel.up)
    (hselection : s'.consumer.selection = s.consumer.selection)
    (hselections : s'.consumer.selections = s.consumer.selections)
    (hv' : s'.consumer.view = some v') (hpositions : v'.positions = v.positions)
    (hpc : s'.consumer.pc.early = false) : Numbering s' := by
  refine ⟨fun h0 => ?_, ?_, ?_, ?_, ?_, ?_, ?_, fun ts hts => h.singles ts (hup ts hts), ?_, ?_⟩
  · rcases h0 with h0 | h0
    · rw [h0] at hpc
      cases hpc
    · rw [h0] at hpc
      cases hpc
  · rw [hmedia, hselection]
    exact h.selected
  · rw [hhost]
    exact h.selecting
  · rw [hhost, hselection]
    exact h.positions
  · rw [hhost, hselection]
    exact h.answers
  · rw [hselection, hselections]
    exact h.selections
  · rw [hselections, hhost, hids]
    exact h.ids
  · intro x hx
    cases hv'.symm.trans hx
    rw [hpositions, hselection, hselections]
    exact h.view v hv
  · intro h0
    cases hv'.symm.trans h0

/-! ### Steps -/

/-- The notices of the host are sent. -/
def Sent (_ : System) : SystemLabel → Prop
  | .add _ _ sent | .update _ sent | .remove _ sent => sent = true
  | _ => True

/-- **The invariant.** -/
structure Converged (base : List Track) (s : System) : Prop where
  listing : Listing base s
  reading : Reading base s
  numbering : Numbering s

namespace Converged

/-- The host gives up. -/
lemma hostFails (h : Converged base s) (error : Error) :
    Converged base (s.hostAt (.failed error)) :=
  ⟨h.listing.aside (Aside.hostAt s _), h.reading.aside (Aside.hostAt s _),
    h.numbering.hostFails error⟩

lemma attached_ne {pc : HostPc} (hpc : s.host.pc = pc) (hpc' : pc = .attached ∨
    (∃ id, pc = .answering id) ∨ pc = .answerReceipt ∨ (∃ todo, pc = .channelReceipt todo) ∨
    pc = .ringsReceipt) : s.host.pc ≠ .selecting ∧ ∀ e, s.host.pc ≠ .failed e := by
  rw [hpc]
  rcases hpc' with rfl | ⟨id, rfl⟩ | rfl | ⟨todo, rfl⟩ | rfl
  all_goals exact ⟨fun h0 => (nomatch h0), fun _ h0 => (nomatch h0)⟩

/-- A change is announced, or refused. -/
lemma announce (h : Converged base s) (hpc : s.host.pc = .attached)
    {x : Except Error (Notices × Notice)}
    (hx : ∀ n' notice, x = .ok (n', notice) → s.host.notices.Changes n' notice) :
    Converged base (s.announce true x) := by
  cases x with
  | error e => exact h
  | ok x =>
      obtain ⟨n', notice⟩ := x
      have hn := hx n' notice rfl
      refine ⟨h.listing.announce hn, ?_, ?_⟩
      · exact h.reading.host [(.notice notice, n'.tracks)] rfl rfl rfl fun _ h0 => h0
      · refine h.numbering.host rfl rfl rfl rfl (fun _ h0 => h0) hn.positions
          (attached_ne hpc (Or.inl rfl)) ?_
        show s.host.pc ≠ .selecting
        rw [hpc]
        exact fun h0 => (nomatch h0)

lemma onServe (h : Converged base s) (w : World) (hpc : s.host.pc = .attached)
    (hs : s.onServe w = some s') : Converged base s' := by
  have hnumbering := h.numbering.onServe w hpc hs
  unfold System.onServe at hs
  split at hs
  · cases hs
  · rename_i x up hup
    cases hs
    refine ⟨?_, ?_, hnumbering⟩
    · refine Listing.send ?_ ?_
      · exact h.listing.congr rfl rfl rfl
      · exact fun _ h0 => (nomatch h0)
    · exact h.reading.host [(.admitted _, s.host.notices.tracks)] rfl rfl rfl
        fun _ h0 => h0
  · cases hs
    exact h.hostFails _
  · cases hs
    exact h.hostFails _

lemma passLate (h : Converged base s) (w : World) {id : ℕ} (hpc : s.host.pc = .answering id) :
    Converged base (s.passLate w id) := by
  have hhost := attached_ne hpc (Or.inr (Or.inl ⟨id, rfl⟩))
  rw [System.passLate]
  dsimp only
  split
  · exact h.hostFails _
  · split_ifs
    · refine ⟨h.listing.congr rfl rfl rfl, ?_, ?_⟩
      · refine h.reading.host [] (List.append_nil _).symm ?_ rfl fun _ h0 => h0
        exact (List.append_nil _).symm
      · exact h.numbering.host rfl rfl rfl rfl (fun _ h0 => h0) rfl hhost fun h0 => (nomatch h0)
    · rename_i bell objects _ _
      refine ⟨?_, ?_, ?_⟩
      · have hrung : Listing base { s with
            host := { s.host with notices := { s.host.notices with bell } } } :=
          h.listing.congr rfl rfl rfl
        have hmessage : ∀ n, Down.objects objects ≠ .notice n := fun _ h0 => (nomatch h0)
        exact (hrung.send hmessage).congr rfl rfl rfl
      · exact h.reading.host [(.objects objects, s.host.notices.tracks)] rfl rfl rfl
          fun _ h0 => h0
      · exact h.numbering.host rfl rfl rfl rfl (fun _ h0 => h0) rfl hhost fun h0 => (nomatch h0)

lemma channelReceipt (h : Converged base s) (hpc : s.host.pc = .answerReceipt)
    (hs : s.channelReceipt = some s') : Converged base s' := by
  unfold System.channelReceipt at hs
  split at hs
  · cases hs
  · rename_i up hup
    cases hs
    refine ⟨h.listing.congr rfl rfl rfl, ?_, ?_⟩
    · refine h.reading.host [] (List.append_nil _).symm ?_ rfl fun _ h0 => h0
      exact (List.append_nil _).symm
    · refine h.numbering.host rfl rfl rfl ?_ (fun u hu => ?_) rfl
        (attached_ne hpc (Or.inr (Or.inr (Or.inl rfl)))) fun h0 => (nomatch h0)
      · rw [hup]
        rfl
      · rw [hup]
        exact List.mem_cons_of_mem _ hu
  · cases hs
    exact h.hostFails _

/-- A step of the consumer on the media stream, after its selection. -/
lemma beside (h : Converged base s) (hb : Beside s s') (hearly : s.consumer.pc.early = true)
    (hconnected : s.consumer.pc ≠ .connecting) : Converged base s' := by
  refine ⟨h.listing.congr hb.log ?_ ?_, h.reading.beside hb hearly hconnected,
    h.numbering.beside hb⟩
  · rw [hb.host]
  · rw [hb.host]

/-- The consumer gives up. -/
lemma fails (h : Converged base s) {error : Error} (herror : error ≠ mismatch) :
    Converged base (s.consumerAt (.failed error)) :=
  ⟨h.listing.congr rfl rfl rfl, h.reading.fails herror, h.numbering.fails error⟩

lemma onNext (h : Converged base s) {v : Tracks} (hv : s.consumer.view = some v)
    (hpc : s.consumer.pc = .attached) (hs : s.onNext v = some s') : Converged base s' := by
  have hreading := h.reading.onNext h.listing hv hpc hs
  have hlate : s.consumer.pc.early = false := by rw [hpc]; rfl
  unfold System.onNext at hs
  split_ifs at hs with hpending
  · cases hs
    rw [System.yieldNext] at hreading ⊢
    split at hreading
    · exact h
    · refine ⟨h.listing.congr rfl rfl rfl, hreading, ?_⟩
      exact h.numbering.read hv rfl rfl rfl (fun _ h0 => h0) rfl rfl rfl rfl hlate
  · split at hs
    · cases hs
    · split at hs
      · rename_i n down hdown v' happly
        cases hs
        have hpositions : v'.positions = v.positions := by
          rw [Tracks.apply] at happly
          split at happly
          · cases happly
            rfl
          · cases happly
        rw [System.yieldNext] at hreading ⊢
        split at hreading
        · refine ⟨h.listing.congr rfl rfl rfl, hreading, ?_⟩
          exact h.numbering.read hv rfl rfl rfl (fun _ h0 => h0) rfl rfl rfl hpositions hlate
        · refine ⟨h.listing.congr rfl rfl rfl, hreading, ?_⟩
          exact h.numbering.read hv rfl rfl rfl (fun _ h0 => h0) rfl rfl rfl hpositions hlate
      · cases hs
        exact ⟨h.listing.congr rfl rfl rfl, hreading, h.numbering.fails _⟩
    · cases hs
      exact ⟨h.listing.congr rfl rfl rfl, hreading, h.numbering.fails _⟩

lemma onSelectLate (h : Converged base s) {v : Tracks} (hv : s.consumer.view = some v)
    (x : Selected) : Converged base (s.onSelectLate v x) := by
  have hn := h.numbering
  refine ⟨h.listing.congr rfl rfl rfl, h.reading.onSelectLate hv x, fun h0 => ?_, hn.selected,
    hn.selecting, hn.positions, hn.answers, ?_, ?_, fun ts hts => ?_, fun v' hv' => ?_,
    fun h0 => (nomatch h0)⟩
  · rcases h0 with h0 | h0
    · cases h0
    · cases h0
  · show Consecutive _ (s.consumer.selections ++ [(x.id, v.positions)])
    rw [hn.view v hv]
    exact hn.selections.append x.id
  · show (s.consumer.selections ++ [(x.id, v.positions)]).map Prod.fst =
      s.host.answers.map Prod.fst ++ lateIds (s.channel.up ++ [Up.selection [x]])
    rw [List.map_append, hn.ids, List.append_assoc, lateIds, lateIds, List.filterMap_append]
    rfl
  · rcases List.mem_append.mp hts with hts | hts
    · exact hn.singles ts hts
    · cases List.mem_singleton.mp hts
      exact ⟨x, rfl⟩
  · cases hv'
    show v.positions + 1 = _ + (s.consumer.selections ++ [_]).length
    rw [hn.view v hv, List.length_append]
    rfl

lemma onAnswered (h : Converged base s) {v : Tracks} {x : Selected}
    (hv : s.consumer.view = some v) (hpc : s.consumer.pc = .lateSelecting x)
    (hs : s.onAnswered v x = some s') : Converged base s' := by
  have hreading := h.reading.onAnswered h.listing hv hpc hs
  have hlate : s.consumer.pc.early = false := by rw [hpc]; rfl
  unfold System.onAnswered at hs
  split at hs
  · cases hs
  · split at hs
    · rename_i n down hdown v' happly
      cases hs
      have hpositions : v'.positions = v.positions := by
        rw [Tracks.apply] at happly
        split at happly
        · cases happly
          rfl
        · cases happly
      refine ⟨h.listing.congr rfl rfl rfl, hreading, ?_⟩
      exact h.numbering.read hv rfl rfl rfl (fun _ h0 => h0) rfl rfl rfl hpositions hlate
    · cases hs
      exact ⟨h.listing.congr rfl rfl rfl, hreading, h.numbering.fails _⟩
  · rename_i a down hdown
    split at hs
    · cases hs
      refine ⟨h.listing.congr rfl rfl rfl, hreading, ?_⟩
      refine h.numbering.read hv rfl rfl rfl (fun _ h0 => h0) rfl rfl rfl rfl ?_
      show ConsumerPc.early (if _ then _ else _) = false
      split_ifs
      · rfl
      · rfl
    · cases hs
      exact ⟨h.listing.congr rfl rfl rfl, hreading, h.numbering.fails _⟩
  · cases hs
    exact ⟨h.listing.congr rfl rfl rfl, hreading, h.numbering.fails _⟩
  · cases hs
    exact ⟨h.listing.congr rfl rfl rfl, hreading, h.numbering.fails _⟩

lemma receiveLate (h : Converged base s) {v : Tracks} {x : Selected}
    (hv : s.consumer.view = some v) (hs : s.receiveLate decode v x = some s') :
    Converged base s' := by
  have hreading := h.reading.receiveLate h.listing hv hs
  unfold System.receiveLate at hs
  split at hs
  · cases hs
  · dsimp only at hs
    split at hs
    · cases hs
      exact ⟨h.listing.congr rfl rfl rfl, hreading, h.numbering.fails _⟩
    · cases hs
      refine ⟨h.listing.congr rfl rfl rfl, hreading, ?_⟩
      refine h.numbering.read hv rfl rfl ?_ (fun _ h0 => mem_selection_append h0) rfl rfl rfl rfl
        rfl
      show lateIds (s.channel.up ++ [Up.receipt]) = _
      rw [lateIds, lateIds, List.filterMap_append]
      exact List.append_nil _
  · cases hs
    exact ⟨h.listing.congr rfl rfl rfl, hreading, h.numbering.fails _⟩

/-- **Every step keeps the two sides together.** -/
theorem step (h : Converged base s) {l : SystemLabel} (hsent : Sent s l)
    (hs : s.step decode l = some s') : Converged base s' := by
  cases l with
  | readSelection w =>
      simp only [System.step] at hs
      split at hs
      · rename_i selection up hpc hup
        cases hs
        have hselection : selection = s.consumer.selection :=
          h.numbering.selected selection (hup ▸ List.mem_cons_self)
        subst hselection
        have hpopped : Aside s { s with media := { s.media with up } } :=
          ⟨rfl, rfl, rfl, rfl, rfl, rfl, fun _ h0 => h0⟩
        have haside := hpopped.trans (Aside.onSelection _ w s.consumer.selection)
        exact ⟨h.listing.aside haside, h.reading.aside haside,
          h.numbering.onSelection w hpc hup⟩
      · cases hs
        exact h.hostFails _
      · cases hs
  | pass w =>
      simp only [System.step, System.onPass] at hs
      split at hs
      · rename_i todo hpc
        cases hs
        have haside := Aside.passMedia s w todo
        exact ⟨h.listing.aside haside, h.reading.aside haside, h.numbering.passMedia w hpc⟩
      · rename_i id hpc
        cases hs
        exact h.passLate w hpc
      · cases hs
  | receipt =>
      simp only [System.step, System.onReceipt] at hs
      split at hs
      · rename_i todo hpc
        have haside := Aside.mediaReceipt hs
        refine ⟨h.listing.aside haside, h.reading.aside haside,
          h.numbering.mediaReceipt (by intro h0; cases h0) (attached_ne hpc ?_) hs⟩
        exact Or.inr (Or.inr (Or.inr (Or.inl ⟨todo, rfl⟩)))
      · rename_i hpc
        have haside := Aside.mediaReceipt hs
        refine ⟨h.listing.aside haside, h.reading.aside haside,
          h.numbering.mediaReceipt (by intro h0; cases h0) (attached_ne hpc ?_) hs⟩
        exact Or.inr (Or.inr (Or.inr (Or.inr rfl)))
      · rename_i hpc
        exact h.channelReceipt hpc hs
      · cases hs
  | add track ring sent =>
      simp only [System.step] at hs
      split_ifs at hs with hpc
      cases hs
      cases hsent
      exact h.announce hpc fun n' notice hx => Notices.add_changes hx
  | update track sent =>
      simp only [System.step] at hs
      split_ifs at hs with hpc
      cases hs
      cases hsent
      exact h.announce hpc fun n' notice hx => Notices.update_changes hx
  | remove id sent =>
      simp only [System.step] at hs
      split_ifs at hs with hpc
      cases hs
      cases hsent
      exact h.announce hpc fun n' notice hx => Notices.remove_changes hx
  | serve w =>
      simp only [System.step] at hs
      split_ifs at hs with hpc
      exact h.onServe w hpc hs
  | hostLeaves =>
      simp only [System.step] at hs
      split at hs
      · cases hs
      · cases hs
        exact h.hostFails _
  | connect =>
      simp only [System.step] at hs
      split_ifs at hs with hpc
      have hframe : s'.log = s.log ∧ s'.host = s.host := by
        unfold System.onConnect at hs
        split at hs
        · cases hs
        · split_ifs at hs
          · cases hs
            exact ⟨rfl, rfl⟩
          · cases hs
            exact ⟨rfl, rfl⟩
        · cases hs
          exact ⟨rfl, rfl⟩
      refine ⟨h.listing.congr hframe.1 ?_ ?_, h.reading.onConnect hpc hs,
        h.numbering.onConnect hpc hs⟩
      · rw [hframe.2]
      · rw [hframe.2]
  | select selection =>
      simp only [System.step] at hs
      split_ifs at hs with hpc
      cases hs
      have hview := h.reading.view (by rw [hpc]; rfl)
      refine ⟨?_, h.reading.onSelect hpc selection, h.numbering.onSelect hview hpc selection⟩
      rw [System.onSelect]
      split_ifs
      · exact h.listing.congr rfl rfl rfl
      · exact h.listing.congr rfl rfl rfl
  | admitted =>
      simp only [System.step] at hs
      split_ifs at hs with hpc
      refine h.beside (Beside.onAdmitted hs) ?_ ?_
      · rw [hpc]
        rfl
      · rw [hpc]
        rintro ⟨⟩
  | receive =>
      simp only [System.step, System.onReceive] at hs
      split at hs
      · rename_i role todo hpc
        refine h.beside (Beside.receiveChannel hs) ?_ ?_
        · rw [hpc]
          rfl
        · rw [hpc]
          rintro ⟨⟩
      · rename_i hpc
        refine h.beside (Beside.receiveMedia hs) ?_ ?_
        · rw [hpc]
          rfl
        · rw [hpc]
          rintro ⟨⟩
      · rename_i x v hpc hv
        exact h.receiveLate hv hs
      · cases hs
  | join connected =>
      simp only [System.step] at hs
      split_ifs at hs with hpc
      cases hs
      have hview := h.reading.view (by rw [hpc]; rfl)
      refine ⟨?_, h.reading.onJoin hpc connected, h.numbering.onJoin hview connected⟩
      rw [System.onJoin]
      split_ifs
      · exact h.listing.congr rfl rfl rfl
      · exact h.listing.congr rfl rfl rfl
  | next =>
      simp only [System.step] at hs
      split at hs
      · rename_i v hpc hv
        exact h.onNext hv hpc hs
      · cases hs
  | selectLate x =>
      simp only [System.step] at hs
      split at hs
      · rename_i v hpc hv
        cases hs
        exact h.onSelectLate hv x
      · cases hs
  | answered =>
      simp only [System.step] at hs
      split at hs
      · rename_i x v hpc hv
        exact h.onAnswered hv hpc hs
      · cases hs
  | consumerLeaves =>
      simp only [System.step] at hs
      split at hs
      · cases hs
      · cases hs
        exact h.fails (by simp [mismatch])

/-- The offer has been written. -/
lemma accept {offer : List Track} (hids : (offer.map (·.id)).Nodup) (target : Bool)
    (playback : List Playback) : Converged offer (System.accept offer target playback) := by
  refine ⟨⟨trivial, rfl, (List.append_nil _).symm, hids, fun t ht => ?_⟩,
    ⟨⟨[], [], rfl, rfl, rfl, rfl, rfl⟩, fun ts hts => ?_, fun _ h0 => absurd rfl h0, fun _ => rfl,
      fun h0 => (nomatch h0)⟩,
    fun _ => ⟨rfl, rfl, rfl, Or.inl rfl⟩, fun ts hts => (nomatch hts), fun _ => rfl, Or.inl rfl,
    fun k x hk => (nomatch hk), fun k x hk => (nomatch hk), rfl, fun ts hts => (nomatch hts),
    fun v hv => (nomatch hv), fun _ => rfl⟩
  · exact List.mem_map_of_mem ht
  · cases List.mem_singleton.mp hts
    rfl

end Converged

lemma validOffer_nodup {offer : List Track} {playback : List Playback}
    (h : validOffer decode offer playback = true) : (offer.map (·.id)).Nodup := by
  simp only [validOffer, Bool.and_eq_true, decide_eq_true_eq] at h
  exact h.1.1.2

/-- **The lists of tracks converge.** For every offer that `accept` admits and every run of
the two sides in which the notices are sent:

* the consumer has read a prefix of the messages of the host; its tracks are those that the
  host had when it sent the last of them, and the rest is on its way;
* the notices of the prefix are those that `next` has returned, followed by those that it
  is going to return;
* a notice never fails to match;
* no id is offered twice;
* the late selections that the host has answered are the first that the consumer has made,
  and the `k`-th takes the position `k` behind those of the handshake on both sides. -/
theorem tracks_converge {offer : List Track} {target : Bool} {playback : List Playback}
    (hoffer : validOffer decode offer playback = true) {s : System}
    (h : Reaches (System.step decode) Sent (System.accept offer target playback) s) :
    (s.consumer.processed ≤ s.log.length ∧
      s.channel.down = (s.log.drop s.consumer.processed).map (·.1) ∧
      s.host.notices.tracks = lastTracks offer s.log) ∧
    (∀ v, s.consumer.view = some v →
      v.tracks = lastTracks offer (s.log.take s.consumer.processed) ∧
      s.consumer.yielded ++ v.pending = noticesOf (s.log.take s.consumer.processed)) ∧
    s.consumer.pc ≠ .failed (.protocol "notice does not match the offer") ∧
    (offer.map (·.id) ++ addedIds s.log).Nodup ∧
    ∀ k x, s.host.answers[k]? = some x →
      s.consumer.selections[k]? = some x ∧ x.2 = s.consumer.selection.length + k := by
  have hconverged : Converged offer s := h.invariant
    (Converged.accept (validOffer_nodup hoffer) target playback) fun _ _ _ hp hc hs => hp.step hc hs
  obtain ⟨hlisting, hreading, hnumbering⟩ := hconverged
  obtain ⟨seen, later, hsplit, hprocessed, hlater, hseen⟩ := hreading.split
  have htake : s.log.take s.consumer.processed = seen := by
    rw [hsplit, hprocessed, List.take_left]
  have hdrop : s.log.drop s.consumer.processed = later := by
    rw [hsplit, hprocessed, List.drop_left]
  refine ⟨⟨?_, ?_, hlisting.last⟩, fun v hv => ?_, hreading.matched, ?_, fun k x hk => ?_⟩
  · rw [hsplit, hprocessed, List.length_append]
    exact Nat.le_add_right _ _
  · rw [hdrop]
    exact hlater
  · rw [htake]
    rw [Consumer.Seen, hv] at hseen
    exact hseen
  · rw [← hlisting.offered]
    exact hlisting.nodup
  · have hposition := hnumbering.answers k x hk
    have hlt : k < (s.host.answers.map Prod.fst).length := by
      rw [List.length_map]
      exact (List.getElem?_eq_some_iff.mp hk).1
    have hid : (s.consumer.selections.map Prod.fst)[k]? = some x.1 := by
      rw [hnumbering.ids, List.getElem?_append_left hlt, List.getElem?_map, hk]
      rfl
    rw [List.getElem?_map] at hid
    obtain ⟨y, hy, hfst⟩ := Option.map_eq_some_iff.mp hid
    have hsnd := hnumbering.selections k y hy
    refine ⟨?_, hposition⟩
    rw [hy]
    exact congrArg some (Prod.ext hfst (hsnd.trans hposition.symm))

/-- A descriptor that all tracks have. -/
def monoDescriptor (_ : List UInt8) : Option Audio.Descriptor := some ⟨⟨8, 1, .mono, .u8⟩, 1, 2⟩

/-- A playback track with its ring. -/
def monoTrack (id : ℕ) : Track := { id, kind := .playback, direction := .fromSource }

def monoRing (id : ℕ) : Playback :=
  { ring := id, id, recording := false, blocks := 2, payloadLen := 1 }

/-- Two sides attach with nothing selected. -/
def attaching : List SystemLabel :=
  [.connect, .select [], .readSelection {}, .admitted, .pass {}, .receive, .receipt, .pass {}, .join true]

/-- A track is added, selected while its notice is on the way, and removed. -/
def lateTrack : List SystemLabel :=
  attaching ++ [SystemLabel.add (monoTrack 1) (some (monoRing 1)) true,
    .selectLate { id := 1 }, .answered, .serve {}, .answered, .pass {}, .receive, .receipt, .next, .remove 1 true,
    .selectLate { id := 1 }, .serve {}, .answered, .answered]

/-- The notices of a label are sent. -/
def sends : System → SystemLabel → Bool
  | _, .add _ _ sent | _, .update _ sent | _, .remove _ sent => sent
  | _, _ => true

lemma sent_of_sends {s : System} {l : SystemLabel} (h : sends s l = true) : Sent s l := by
  cases l with
  | add track ring sent => exact h
  | update track sent => exact h
  | remove id sent => exact h
  | _ => trivial

theorem tracks_converge_lateTrack : ∃ s,
    execIn (System.step monoDescriptor) sends (System.accept [] false []) lateTrack = some s ∧
    (s.host.answers = [(1, 0), (1, 1)] ∧ s.consumer.mapped.length = 1 ∧
      s.consumer.yielded = [.added (monoTrack 1)]) ∧
    (s.consumer.processed ≤ s.log.length ∧
      s.channel.down = (s.log.drop s.consumer.processed).map (·.1) ∧
      s.host.notices.tracks = lastTracks [] s.log) ∧
    (∀ v, s.consumer.view = some v →
      v.tracks = lastTracks [] (s.log.take s.consumer.processed) ∧
      s.consumer.yielded ++ v.pending = noticesOf (s.log.take s.consumer.processed)) ∧
    s.consumer.pc ≠ .failed (.protocol "notice does not match the offer") ∧
    (([] : List Track).map (·.id) ++ addedIds s.log).Nodup ∧
    ∀ k x, s.host.answers[k]? = some x →
      s.consumer.selections[k]? = some x ∧ x.2 = s.consumer.selection.length + k := by
  obtain ⟨s, hs⟩ : ∃ s, execIn (System.step monoDescriptor) sends (System.accept [] false [])
      lateTrack = some s := Option.isSome_iff_exists.mp (by decide +kernel)
  have hfacts : (execIn (System.step monoDescriptor) sends (System.accept [] false [])
      lateTrack).all (fun s => decide (s.host.answers = [(1, 0), (1, 1)] ∧
        s.consumer.mapped.length = 1 ∧ s.consumer.yielded = [.added (monoTrack 1)])) = true := by
    decide +kernel
  rw [hs] at hfacts
  have hreach : Reaches (System.step monoDescriptor) Sent (System.accept [] false []) s :=
    Reaches.of_execIn (fun _ _ h => sent_of_sends h) hs
  exact ⟨s, hs, of_decide_eq_true hfacts, tracks_converge (by decide) hreach⟩

end Jackstay.Handshake
