import Mathlib.Order.Nat
import Jackstay.Handshake.Attachment

/-!
The list of tracks of the host, and what the consumer has read of it.

* `Listing`: the messages that the host has sent lead from the offer to its list of tracks,
  and no id is offered twice.
* `Reading`: the consumer has read a prefix of them, and its list is what the prefix leads
  to; the notices of the prefix have been yielded or are pending.
* `Aside`, `Beside`: a step of the host, or of the consumer, on the media stream.
-/

namespace Jackstay.Handshake

open Transition

/-! ### Messages and lists of tracks -/

/-- What a message makes of a list of tracks. -/
def Down.apply (message : Down) (tracks : List Track) : Option (List Track) :=
  match message with
  | .notice n => n.apply tracks
  | _ => some tracks

/-- Every message leads from the list before it to the list that is logged with it. -/
def Chained : List Track → List (Down × List Track) → Prop
  | _, [] => True
  | tracks, x :: log => x.1.apply tracks = some x.2 ∧ Chained x.2 log

/-- The list of tracks after these messages. -/
def lastTracks : List Track → List (Down × List Track) → List Track
  | tracks, [] => tracks
  | _, x :: log => lastTracks x.2 log

/-- The notices among the messages. -/
def noticesOf (log : List (Down × List Track)) : List Notice :=
  log.filterMap fun x =>
    match x.1 with
    | .notice n => some n
    | _ => none

/-- The id that a notice offers. -/
def Notice.offers : Notice → List ℕ
  | .added track => [track.id]
  | _ => []

/-- The ids of the tracks that the messages add. -/
def addedIds (log : List (Down × List Track)) : List ℕ := (noticesOf log).flatMap (·.offers)

variable {base : List Track} {log more : List (Down × List Track)}

lemma lastTracks_append (base : List Track) (log : List (Down × List Track))
    (x : Down × List Track) : lastTracks base (log ++ [x]) = x.2 := by
  induction log generalizing base with
  | nil => rfl
  | cons y log ih => exact ih y.2

lemma chained_append :
    Chained base (log ++ more) ↔ Chained base log ∧ Chained (lastTracks base log) more := by
  induction log generalizing base with
  | nil => exact ⟨fun h => ⟨trivial, h⟩, fun h => h.2⟩
  | cons x log ih =>
      show (_ ∧ Chained x.2 (log ++ more)) ↔ (_ ∧ Chained x.2 log) ∧ _
      rw [ih, and_assoc]
      rfl

lemma noticesOf_append (log more : List (Down × List Track)) :
    noticesOf (log ++ more) = noticesOf log ++ noticesOf more := List.filterMap_append

lemma addedIds_append (log more : List (Down × List Track)) :
    addedIds (log ++ more) = addedIds log ++ addedIds more := by
  rw [addedIds, noticesOf_append]
  exact List.flatMap_append

/-- A place in a list is the place of a track. -/
lemma indexOf_eq_none {tracks : List Track} {id : ℕ} :
    indexOf tracks id = none ↔ ∀ t ∈ tracks, t.id ≠ id := by
  rw [indexOf, List.findIdx?_eq_none_iff]
  exact ⟨fun h t ht h0 => by simpa [h0] using h t ht, fun h t ht => by simpa using h t ht⟩

/-! ### The list of the host -/

/-- **The messages lead from the offer to the tracks of the host.** -/
structure Listing (base : List Track) (s : System) : Prop where
  chained : Chained base s.log
  last : s.host.notices.tracks = lastTracks base s.log
  offered : s.host.notices.offered = base.map (·.id) ++ addedIds s.log
  nodup : s.host.notices.offered.Nodup
  ids : ∀ t ∈ s.host.notices.tracks, t.id ∈ s.host.notices.offered

variable {s s' : System}

lemma Listing.congr (h : Listing base s) (hlog : s'.log = s.log)
    (htracks : s'.host.notices.tracks = s.host.notices.tracks)
    (hoffered : s'.host.notices.offered = s.host.notices.offered) : Listing base s' := by
  refine ⟨?_, ?_, ?_, ?_, ?_⟩
  · rw [hlog]
    exact h.chained
  · rw [hlog, htracks]
    exact h.last
  · rw [hlog, hoffered]
    exact h.offered
  · rw [hoffered]
    exact h.nodup
  · rw [hoffered, htracks]
    exact h.ids

/-- A message that is not a notice. -/
lemma Listing.send (h : Listing base s) {message : Down} (hm : ∀ n, message ≠ .notice n) :
    Listing base (s.send message) := by
  have hnotices : noticesOf [(message, s.host.notices.tracks)] = [] := by
    cases message with
    | notice n => exact absurd rfl (hm n)
    | offer _ => rfl
    | admitted _ => rfl
    | objects _ => rfl
  refine ⟨?_, (lastTracks_append base s.log (message, s.host.notices.tracks)).symm, ?_, h.nodup,
    h.ids⟩
  · refine chained_append.mpr ⟨h.chained, ?_, trivial⟩
    rw [← h.last]
    cases message with
    | notice n => exact absurd rfl (hm n)
    | offer _ => rfl
    | admitted _ => rfl
    | objects _ => rfl
  · show s.host.notices.offered = _ ++ addedIds (s.log ++ [_])
    rw [addedIds_append, h.offered, addedIds, addedIds, hnotices]
    exact congrArg _ (List.append_nil _).symm

/-- The notice of a change: it leads to the new list, and only `add` takes a new id. -/
structure Notices.Changes (n n' : Notices) (notice : Notice) : Prop where
  apply : n.offered.Nodup → (∀ t ∈ n.tracks, t.id ∈ n.offered) →
    notice.apply n.tracks = some n'.tracks
  offered : n'.offered = n.offered ++ notice.offers
  nodup : n.offered.Nodup → n'.offered.Nodup
  ids : (∀ t ∈ n.tracks, t.id ∈ n.offered) → ∀ t ∈ n'.tracks, t.id ∈ n'.offered
  positions : n'.positions = n.positions

variable {decode : List UInt8 → Option Audio.Descriptor} {n n' : Notices} {notice : Notice}

lemma Notices.find_eq {id i : ℕ} (h : n.find id = some i) :
    indexOf n.tracks id = some i ∧ ∃ t, n.tracks[i]? = some t ∧ t.id = id ∧ t.kind.late = true := by
  obtain ⟨hindex, hlate⟩ := Option.filter_eq_some_iff.mp h
  refine ⟨hindex, ?_⟩
  obtain ⟨hlt, hid, -⟩ := List.findIdx?_eq_some_iff_getElem.mp hindex
  rw [List.getElem?_eq_getElem hlt] at hlate ⊢
  exact ⟨_, rfl, by simpa using hid, hlate⟩

lemma Notices.add_changes {track : Track} {ring : Option Playback}
    (h : n.add decode track ring = .ok (n', notice)) : n.Changes n' notice := by
  rw [Notices.add] at h
  split_ifs at h with herror
  cases h
  push Not at herror
  have hnew : track.id ∉ n.offered := by simpa using herror.2.2.2
  refine ⟨fun _ hids => ?_, rfl, fun hnodup => ?_, fun hids t ht => ?_, rfl⟩
  · have hnone : indexOf n.tracks track.id = none :=
      indexOf_eq_none.mpr fun t ht h0 => hnew (h0 ▸ hids t ht)
    show (if (indexOf n.tracks track.id).isNone then _ else _) = _
    rw [hnone]
    rfl
  · refine List.nodup_append.mpr ⟨hnodup, List.nodup_singleton _, fun a ha b hb => ?_⟩
    rw [List.mem_singleton.mp hb]
    exact fun h0 => hnew (h0 ▸ ha)
  · rcases List.mem_append.mp ht with ht | ht
    · exact List.mem_append_left _ (hids t ht)
    · rw [List.mem_singleton.mp ht]
      exact List.mem_append_right _ List.mem_cons_self

lemma Notices.update_changes {track : Track} (h : n.update decode track = .ok (n', notice)) :
    n.Changes n' notice := by
  rw [Notices.update] at h
  cases hfind : n.find track.id with
  | none =>
      rw [hfind] at h
      cases h
  | some i =>
      rw [hfind] at h
      dsimp only at h
      split_ifs at h with herror
      cases h
      obtain ⟨hindex, t, ht, hid, -⟩ := Notices.find_eq hfind
      refine ⟨fun _ _ => ?_, (List.append_nil _).symm, fun hnodup => hnodup, fun hids x hx => ?_,
        rfl⟩
      · show (indexOf n.tracks track.id).map _ = _
        rw [hindex]
        rfl
      · rcases List.mem_or_eq_of_mem_set hx with hx | rfl
        · exact hids x hx
        · rw [← hid]
          exact hids t (List.mem_of_getElem? ht)

lemma Notices.remove_changes {id : ℕ} (h : n.remove id = .ok (n', notice)) :
    n.Changes n' notice := by
  rw [Notices.remove] at h
  cases hfind : n.find id with
  | none =>
      rw [hfind] at h
      cases h
  | some i =>
      rw [hfind] at h
      cases h
      obtain ⟨hindex, -⟩ := Notices.find_eq hfind
      refine ⟨fun _ _ => ?_, (List.append_nil _).symm, fun hnodup => hnodup, fun hids x hx => ?_,
        rfl⟩
      · show (indexOf n.tracks id).map _ = _
        rw [hindex]
        rfl
      · exact hids x (List.mem_of_mem_eraseIdx hx)

/-- A notice is sent. -/
lemma Listing.announce (h : Listing base s) (hn : s.host.notices.Changes n' notice) :
    Listing base (({ s with host := { s.host with notices := n' } } : System).send
      (.notice notice)) := by
  refine ⟨chained_append.mpr ⟨h.chained, ?_, trivial⟩,
    (lastTracks_append base s.log (.notice notice, n'.tracks)).symm, ?_, hn.nodup h.nodup,
    hn.ids h.ids⟩
  · rw [← h.last]
    exact hn.apply h.nodup h.ids
  · show n'.offered = _ ++ addedIds (s.log ++ [_])
    rw [hn.offered, addedIds_append, h.offered, List.append_assoc]
    exact congrArg (fun l => _ ++ (_ ++ l)) (List.append_nil _).symm

/-! ### The steps of the host on the media stream -/

/-- A step of the host on the media stream does not concern the channel. -/
structure Aside (s s' : System) : Prop where
  log : s'.log = s.log
  channel : s'.channel = s.channel
  consumer : s'.consumer = s.consumer
  answers : s'.host.answers = s.host.answers
  tracks : s'.host.notices.tracks = s.host.notices.tracks
  offered : s'.host.notices.offered = s.host.notices.offered
  offers : ∀ tracks, .offer tracks ∈ s'.media.down → .offer tracks ∈ s.media.down

lemma Aside.trans {s₁ : System} (h : Aside s s') (h' : Aside s' s₁) : Aside s s₁ :=
  ⟨h'.log.trans h.log, h'.channel.trans h.channel, h'.consumer.trans h.consumer,
    h'.answers.trans h.answers, h'.tracks.trans h.tracks, h'.offered.trans h.offered,
    fun ts hts => h.offers ts (h'.offers ts hts)⟩

lemma Listing.aside (h : Listing base s) (ha : Aside s s') : Listing base s' :=
  h.congr ha.log ha.tracks ha.offered

lemma Aside.hostAt (s : System) (pc : HostPc) : Aside s (s.hostAt pc) :=
  ⟨rfl, rfl, rfl, rfl, rfl, rfl, fun _ h => h⟩

/-- Another message is behind those on the media stream. -/
lemma mem_offer_append {down : List Down} {message : Down} {tracks : List Track}
    (hm : ∀ ts, message ≠ .offer ts) (h : .offer tracks ∈ down ++ [message]) :
    .offer tracks ∈ down := by
  rcases List.mem_append.mp h with h | h
  · exact h
  · exact absurd (List.mem_singleton.mp h).symm (hm tracks)

lemma Aside.onSelection (s : System) (w : World) (selection : List Selected) :
    Aside s (s.onSelection w selection) := by
  rw [System.onSelection]
  dsimp only
  split
  · exact Aside.hostAt s _
  split
  · exact ⟨rfl, rfl, rfl, rfl, rfl, rfl, fun _ h => mem_offer_append (by intro _ h0; cases h0) h⟩
  · split
    · exact Aside.hostAt s _
    · exact ⟨rfl, rfl, rfl, rfl, rfl, rfl,
        fun _ h => mem_offer_append (by intro _ h0; cases h0) h⟩

lemma Aside.passMedia (s : System) (w : World) (todo : List Object) :
    Aside s (s.passMedia w todo) := by
  cases todo with
  | cons o todo =>
      exact ⟨rfl, rfl, rfl, rfl, rfl, rfl,
        fun _ h => mem_offer_append (by intro _ h0; cases h0) h⟩
  | nil =>
      rw [System.passMedia]
      dsimp only
      split
      · exact Aside.hostAt s _
      · split_ifs
        · exact ⟨rfl, rfl, rfl, rfl, rfl, rfl, fun _ h => h⟩
        · exact ⟨rfl, rfl, rfl, rfl, rfl, rfl,
            fun _ h => mem_offer_append (by intro _ h0; cases h0) h⟩

lemma Aside.mediaReceipt {pc : HostPc} (hs : s.mediaReceipt pc = some s') : Aside s s' := by
  unfold System.mediaReceipt at hs
  split at hs
  · cases hs
  · cases hs
    exact ⟨rfl, rfl, rfl, rfl, rfl, rfl, fun _ h => h⟩
  · cases hs
    exact Aside.hostAt s _

/-! ### The steps of the consumer on the media stream -/

/-- `Offered::select` has not returned. -/
def ConsumerPc.early : ConsumerPc → Bool
  | .connecting | .offered | .selecting | .channels _ | .rings | .joining => true
  | _ => false

/-- The error of a notice that does not match. -/
def mismatch : Error := .protocol "notice does not match the offer"

/-- A step of the consumer on the media stream, after its selection. -/
structure Beside (s s' : System) : Prop where
  log : s'.log = s.log
  host : s'.host = s.host
  channel : s'.channel = s.channel
  processed : s'.consumer.processed = s.consumer.processed
  yielded : s'.consumer.yielded = s.consumer.yielded
  selections : s'.consumer.selections = s.consumer.selections
  selection : s'.consumer.selection = s.consumer.selection
  view : s'.consumer.view = s.consumer.view
  offer : s'.consumer.offer = s.consumer.offer
  offers : ∀ tracks, .offer tracks ∈ s'.media.down → .offer tracks ∈ s.media.down
  selected : ∀ tracks, .selection tracks ∈ s'.media.up → .selection tracks ∈ s.media.up
  pc : s'.consumer.pc ≠ .connecting ∧ s'.consumer.pc ≠ .offered
  matched : s'.consumer.pc ≠ .failed mismatch

lemma Beside.fails (s : System) {error : Error} (h : error ≠ mismatch) :
    Beside s (s.consumerAt (.failed error)) := by
  refine ⟨rfl, rfl, rfl, rfl, rfl, rfl, rfl, rfl, rfl, fun _ h => h, fun _ h => h, ?_, ?_⟩
  · exact ⟨fun h0 => (nomatch h0), fun h0 => (nomatch h0)⟩
  · intro h0
    cases h0
    exact h rfl

lemma mem_selection_append {up : List Up} {tracks : List Selected}
    (h : Up.selection tracks ∈ up ++ [Up.receipt]) : Up.selection tracks ∈ up := by
  rcases List.mem_append.mp h with h | h
  · exact h
  · cases List.mem_singleton.mp h

lemma Beside.onAdmitted (hs : s.onAdmitted = some s') : Beside s s' := by
  unfold System.onAdmitted at hs
  split at hs
  · cases hs
  · rename_i admissions down hdown
    dsimp only at hs
    split at hs
    · cases hs
      exact Beside.fails s (by simp [mismatch])
    split at hs
    · cases hs
      exact Beside.fails s (by simp [mismatch])
    · cases hs
      refine ⟨rfl, rfl, rfl, rfl, rfl, rfl, rfl, rfl, rfl, fun _ h => ?_, fun _ h => h, ?_, ?_⟩
      · rw [hdown]
        exact List.mem_cons_of_mem _ h
      · exact ⟨fun h0 => (nomatch h0), fun h0 => (nomatch h0)⟩
      · exact fun h0 => (nomatch h0)
  · cases hs
    exact Beside.fails s (by simp [mismatch])

/-- What comes after the channels. -/
lemma afterChannels_ne (c : Consumer) (todo : List Role) :
    (System.afterChannels c todo ≠ .connecting ∧ System.afterChannels c todo ≠ .offered) ∧
      System.afterChannels c todo ≠ .failed mismatch := by
  cases todo with
  | nil =>
      rw [System.afterChannels]
      split_ifs
      · exact ⟨⟨fun h0 => (nomatch h0), fun h0 => (nomatch h0)⟩, fun h0 => (nomatch h0)⟩
      · exact ⟨⟨fun h0 => (nomatch h0), fun h0 => (nomatch h0)⟩, fun h0 => (nomatch h0)⟩
  | cons role todo =>
      exact ⟨⟨fun h0 => (nomatch h0), fun h0 => (nomatch h0)⟩, fun h0 => (nomatch h0)⟩

lemma Beside.receiveChannel {role : Role} {todo : List Role}
    (hs : s.receiveChannel role todo = some s') : Beside s s' := by
  unfold System.receiveChannel at hs
  split at hs
  · cases hs
  · rename_i o down hdown
    split at hs
    · cases hs
      refine ⟨rfl, rfl, rfl, rfl, rfl, rfl, rfl, rfl, rfl, fun _ h => ?_,
        fun _ h => mem_selection_append h, (afterChannels_ne _ todo).1, (afterChannels_ne _ todo).2⟩
      rw [hdown]
      exact List.mem_cons_of_mem _ h
    · cases hs
      exact Beside.fails s (by simp [mismatch])
  · cases hs
    exact Beside.fails s (by simp [mismatch])

lemma mapRing_error {t : Track} {o : Object} {error : Error}
    (h : mapRing decode t o = .error error) : error = .audio := by
  unfold mapRing at h
  dsimp only at h
  split at h
  · split_ifs at h
    cases h
    rfl
  · cases h
    rfl

lemma mapRings_error {xs : List (Track × Object)} {error : Error}
    (h : (xs.mapM fun x => mapRing decode x.1 x.2) = .error error) : error = .audio := by
  induction xs with
  | nil => cases h
  | cons x xs ih =>
      rw [List.mapM_cons] at h
      cases hx : mapRing decode x.1 x.2 with
      | error e =>
          rw [hx] at h
          cases h
          exact mapRing_error hx
      | ok m =>
          rw [hx] at h
          cases hxs : xs.mapM fun x => mapRing decode x.1 x.2 with
          | error e =>
              rw [hxs] at h
              cases h
              exact ih hxs
          | ok ms =>
              rw [hxs] at h
              cases h

lemma receiveRings_error {e : Expected} {objects : List Object} {error : Error}
    (h : receiveRings decode e objects = .error error) : error ≠ mismatch := by
  rw [receiveRings] at h
  split_ifs at h
  · cases h
    simp [mismatch]
  · cases h
    simp [mismatch]
  all_goals
    rw [mapRings_error h]
    simp [mismatch]

lemma Beside.receiveMedia (hs : s.receiveMedia decode = some s') : Beside s s' := by
  unfold System.receiveMedia at hs
  split at hs
  · cases hs
  · rename_i objects down hdown
    dsimp only at hs
    split at hs
    · rename_i error herror
      cases hs
      exact Beside.fails s (receiveRings_error herror)
    · cases hs
      refine ⟨rfl, rfl, rfl, rfl, rfl, rfl, rfl, rfl, rfl, fun _ h => ?_,
        fun _ h => mem_selection_append h, ?_, fun h0 => (nomatch h0)⟩
      · rw [hdown]
        exact List.mem_cons_of_mem _ h
      · exact ⟨fun h0 => (nomatch h0), fun h0 => (nomatch h0)⟩
  · cases hs
    exact Beside.fails s (by simp [mismatch])

/-! ### What the consumer has read -/

/-- The consumer has made this of the messages that it has read. -/
def Consumer.Seen (base : List Track) (seen : List (Down × List Track)) (c : Consumer) : Prop :=
  match c.view with
  | none => seen = [] ∧ c.yielded = []
  | some v => v.tracks = lastTracks base seen ∧ c.yielded ++ v.pending = noticesOf seen

/-- **The consumer follows the host.** -/
structure Reading (base : List Track) (s : System) : Prop where
  split : ∃ seen later, s.log = seen ++ later ∧ s.consumer.processed = seen.length ∧
    s.channel.down = later.map (·.1) ∧ s.consumer.Seen base seen
  offers : ∀ tracks, .offer tracks ∈ s.media.down → tracks = base
  offer : s.consumer.pc.early = true → s.consumer.pc ≠ .connecting → s.consumer.offer = base
  view : s.consumer.pc.early = true → s.consumer.view = none
  matched : s.consumer.pc ≠ .failed mismatch

/-- The host sends some messages on the channel, or none. -/
lemma Reading.host (h : Reading base s) (more : List (Down × List Track))
    (hlog : s'.log = s.log ++ more) (hdown : s'.channel.down = s.channel.down ++ more.map (·.1))
    (hconsumer : s'.consumer = s.consumer)
    (hoffers : ∀ tracks, .offer tracks ∈ s'.media.down → .offer tracks ∈ s.media.down) :
    Reading base s' := by
  obtain ⟨seen, later, hsplit, hprocessed, hlater, hseen⟩ := h.split
  refine ⟨⟨seen, later ++ more, ?_, ?_, ?_, ?_⟩, fun ts hts => h.offers ts (hoffers ts hts), ?_, ?_,
    ?_⟩
  · rw [hlog, hsplit, List.append_assoc]
  · rw [hconsumer]
    exact hprocessed
  · rw [hdown, hlater, List.map_append]
  · rw [hconsumer]
    exact hseen
  · rw [hconsumer]
    exact h.offer
  · rw [hconsumer]
    exact h.view
  · rw [hconsumer]
    exact h.matched

lemma Reading.aside (h : Reading base s) (ha : Aside s s') : Reading base s' := by
  refine h.host [] ?_ ?_ ha.consumer ha.offers
  · rw [ha.log, List.append_nil]
  · rw [ha.channel]
    exact (List.append_nil _).symm

lemma Consumer.Seen.congr {c c' : Consumer} {seen : List (Down × List Track)} (h : c.Seen base seen)
    (hview : c'.view = c.view) (hyielded : c'.yielded = c.yielded) : c'.Seen base seen := by
  rw [Consumer.Seen, hview, hyielded]
  exact h

lemma Reading.beside (h : Reading base s) (hb : Beside s s') (hearly : s.consumer.pc.early = true)
    (hconnected : s.consumer.pc ≠ .connecting) : Reading base s' := by
  obtain ⟨seen, later, hsplit, hprocessed, hlater, hseen⟩ := h.split
  refine ⟨⟨seen, later, ?_, ?_, ?_, hseen.congr hb.view hb.yielded⟩,
    fun ts hts => h.offers ts (hb.offers ts hts), fun _ _ => ?_, fun _ => ?_, hb.matched⟩
  · rw [hb.log]
    exact hsplit
  · rw [hb.processed]
    exact hprocessed
  · rw [hb.channel]
    exact hlater
  · rw [hb.offer]
    exact h.offer hearly hconnected
  · rw [hb.view]
    exact h.view hearly

/-- The consumer gives up. -/
lemma Reading.fails (h : Reading base s) {error : Error} (herror : error ≠ mismatch) :
    Reading base (s.consumerAt (.failed error)) := by
  obtain ⟨seen, later, hsplit, hprocessed, hlater, hseen⟩ := h.split
  refine ⟨⟨seen, later, hsplit, hprocessed, hlater, hseen.congr rfl rfl⟩, h.offers,
    fun h0 => (nomatch h0), fun h0 => (nomatch h0), ?_⟩
  intro h0
  cases h0
  exact herror rfl

lemma Reading.onConnect (h : Reading base s) (hpc : s.consumer.pc = .connecting)
    (hs : s.onConnect = some s') : Reading base s' := by
  obtain ⟨seen, later, hsplit, hprocessed, hlater, hseen⟩ := h.split
  unfold System.onConnect at hs
  split at hs
  · cases hs
  · rename_i tracks down hdown
    split_ifs at hs
    · cases hs
      have htracks : tracks = base := h.offers tracks (hdown ▸ List.mem_cons_self)
      refine ⟨⟨seen, later, hsplit, hprocessed, hlater, hseen.congr rfl rfl⟩, fun ts hts => ?_,
        fun _ _ => htracks, fun _ => ?_, fun h0 => (nomatch h0)⟩
      · exact h.offers ts (hdown ▸ List.mem_cons_of_mem _ hts)
      · exact h.view (by rw [hpc]; rfl)
    · cases hs
      exact h.fails (by simp [mismatch])
  · cases hs
    exact h.fails (by simp [mismatch])

lemma Reading.onSelect (h : Reading base s) (hpc : s.consumer.pc = .offered)
    (selection : List Selected) : Reading base (s.onSelect selection) := by
  have hearly : s.consumer.pc.early = true := by rw [hpc]; rfl
  have hoffer := h.offer hearly (by rw [hpc]; exact fun h0 => (nomatch h0))
  obtain ⟨seen, later, hsplit, hprocessed, hlater, hseen⟩ := h.split
  rw [System.onSelect]
  split_ifs
  · exact ⟨⟨seen, later, hsplit, hprocessed, hlater, hseen.congr rfl rfl⟩, h.offers,
      fun _ _ => hoffer, fun _ => h.view hearly, fun h0 => (nomatch h0)⟩
  · exact h.fails (by simp [mismatch])

lemma Reading.onJoin (h : Reading base s) (hpc : s.consumer.pc = .joining) (connected : Bool) :
    Reading base (s.onJoin connected) := by
  have hearly : s.consumer.pc.early = true := by rw [hpc]; rfl
  have hoffer := h.offer hearly (by rw [hpc]; exact fun h0 => (nomatch h0))
  have hview := h.view hearly
  obtain ⟨seen, later, hsplit, hprocessed, hlater, hseen⟩ := h.split
  rw [Consumer.Seen, hview] at hseen
  obtain ⟨rfl, hyielded⟩ := hseen
  rw [System.onJoin]
  split_ifs
  · refine ⟨⟨[], later, hsplit, hprocessed, hlater, hoffer, ?_⟩, h.offers, fun h0 => (nomatch h0),
      fun h0 => (nomatch h0), fun h0 => (nomatch h0)⟩
    show s.consumer.yielded ++ [] = []
    rw [hyielded]
    rfl
  · exact h.fails (by simp [mismatch])

/-- The first message on the channel leads to the list that is logged with it. -/
lemma Reading.first (h : Reading base s) (hl : Listing base s) {v : Tracks}
    (hv : s.consumer.view = some v) {message : Down} {down : List Down}
    (hdown : s.channel.down = message :: down) : ∃ seen after later,
      s.log = seen ++ (message, after) :: later ∧ s.consumer.processed = seen.length ∧
      down = later.map (·.1) ∧ message.apply v.tracks = some after ∧
      s.consumer.yielded ++ v.pending = noticesOf seen := by
  obtain ⟨seen, later, hsplit, hprocessed, hlater, hseen⟩ := h.split
  rw [Consumer.Seen, hv] at hseen
  obtain ⟨htracks, hnotices⟩ := hseen
  rw [hdown] at hlater
  cases later with
  | nil => cases hlater
  | cons x later =>
      obtain ⟨rfl, rfl⟩ := List.cons.inj hlater
      have hchained := hl.chained
      rw [hsplit, chained_append] at hchained
      refine ⟨seen, x.2, later, hsplit, hprocessed, rfl, ?_, hnotices⟩
      rw [htracks]
      exact hchained.2.1

/-- A message of the channel has been read: the list is the one that is logged with it. -/
lemma Reading.read (h : Reading base s) {message : Down} {seen later : List (Down × List Track)}
    {after : List Track} {v : Tracks} (hlog : s.log = seen ++ (message, after) :: later)
    (hprocessed : s.consumer.processed = seen.length) (hs'log : s'.log = s.log)
    (hs'processed : s'.consumer.processed = s.consumer.processed + 1)
    (hdown : s'.channel.down = later.map (·.1)) (hmedia : s'.media = s.media)
    (hview : s'.consumer.view = some v) (htracks : v.tracks = after)
    (hnotices : s'.consumer.yielded ++ v.pending = noticesOf (seen ++ [(message, after)]))
    (hpc : s'.consumer.pc.early = false) (hmatched : s'.consumer.pc ≠ .failed mismatch) :
    Reading base s' := by
  refine ⟨⟨seen ++ [(message, after)], later, ?_, ?_, hdown, ?_⟩, ?_, ?_, ?_, hmatched⟩
  · rw [hs'log, hlog, List.append_assoc]
    rfl
  · rw [hs'processed, hprocessed, List.length_append]
    rfl
  · rw [Consumer.Seen, hview]
    refine ⟨?_, hnotices⟩
    rw [htracks, lastTracks_append]
  · rw [hmedia]
    exact h.offers
  · intro h0
    cases hpc.symm.trans h0
  · intro h0
    cases hpc.symm.trans h0

/-- A notice that has been sent matches. -/
lemma apply_eq {v : Tracks} {after : List Track} (h : notice.apply v.tracks = some after) :
    v.apply notice = .ok { v with tracks := after, pending := v.pending ++ [notice] } := by
  rw [Tracks.apply, h]

lemma noticesOf_notice (seen : List (Down × List Track)) (notice : Notice) (after : List Track) :
    noticesOf (seen ++ [(.notice notice, after)]) = noticesOf seen ++ [notice] :=
  noticesOf_append _ _

/-- What is read and not a notice leaves nothing to yield. -/
lemma noticesOf_other (seen : List (Down × List Track)) {message : Down} (after : List Track)
    (h : ∀ n, message ≠ .notice n) : noticesOf (seen ++ [(message, after)]) = noticesOf seen := by
  rw [noticesOf_append]
  cases message with
  | notice n => exact absurd rfl (h n)
  | offer _ => exact List.append_nil _
  | admitted _ => exact List.append_nil _
  | objects _ => exact List.append_nil _

lemma Reading.onNext (h : Reading base s) (hl : Listing base s) {v : Tracks}
    (hv : s.consumer.view = some v) (hpc : s.consumer.pc = .attached)
    (hs : s.onNext v = some s') : Reading base s' := by
  have hlate : s.consumer.pc.early = false := by rw [hpc]; rfl
  have hmatched := h.matched
  unfold System.onNext at hs
  split_ifs at hs with hpending
  · cases hs
    obtain ⟨seen, later, hsplit, hprocessed, hlater, hseen⟩ := h.split
    rw [Consumer.Seen, hv] at hseen
    obtain ⟨htracks, hnotices⟩ := hseen
    rw [System.yieldNext]
    cases hqueue : v.pending with
    | nil => exact absurd hqueue hpending
    | cons x pending =>
        refine ⟨⟨seen, later, hsplit, hprocessed, hlater, htracks, ?_⟩, h.offers, ?_, ?_, hmatched⟩
        · show (s.consumer.yielded ++ [x]) ++ pending = _
          rw [← hnotices, hqueue, List.append_assoc]
          rfl
        · intro h0
          cases hlate.symm.trans h0
        · intro h0
          cases hlate.symm.trans h0
  · have hempty : v.pending = [] := Classical.not_not.mp hpending
    split at hs
    · cases hs
    · rename_i x down hdown
      obtain ⟨seen, after, later, hlog, hprocessed, hlater, happly, hnotices⟩ :=
        h.first hl hv hdown
      rw [apply_eq happly, hempty] at hs
      cases hs
      refine h.read hlog hprocessed rfl rfl hlater rfl rfl rfl ?_ hlate hmatched
      show (s.consumer.yielded ++ [x]) ++ [] = _
      rw [noticesOf_notice, ← hnotices, hempty, List.append_nil, List.append_nil]
    · cases hs
      exact h.fails (by simp [mismatch])

lemma Reading.onSelectLate (h : Reading base s) {v : Tracks} (hv : s.consumer.view = some v)
    (x : Selected) : Reading base (s.onSelectLate v x) := by
  obtain ⟨seen, later, hsplit, hprocessed, hlater, hseen⟩ := h.split
  rw [Consumer.Seen, hv] at hseen
  exact ⟨⟨seen, later, hsplit, hprocessed, hlater, hseen⟩, h.offers, fun h0 => (nomatch h0),
    fun h0 => (nomatch h0), fun h0 => (nomatch h0)⟩

lemma Reading.onAnswered (h : Reading base s) (hl : Listing base s) {v : Tracks} {x : Selected}
    (hv : s.consumer.view = some v) (hpc : s.consumer.pc = .lateSelecting x)
    (hs : s.onAnswered v x = some s') : Reading base s' := by
  have hlate : s.consumer.pc.early = false := by rw [hpc]; rfl
  have hmatched := h.matched
  unfold System.onAnswered at hs
  split at hs
  · cases hs
  · rename_i notice down hdown
    obtain ⟨seen, after, later, hlog, hprocessed, hlater, happly, hnotices⟩ := h.first hl hv hdown
    rw [apply_eq happly] at hs
    cases hs
    refine h.read hlog hprocessed rfl rfl hlater rfl rfl rfl ?_ hlate hmatched
    show s.consumer.yielded ++ (v.pending ++ [notice]) = _
    rw [noticesOf_notice, ← hnotices, List.append_assoc]
  · rename_i a down hdown
    obtain ⟨seen, after, later, hlog, hprocessed, hlater, happly, hnotices⟩ := h.first hl hv hdown
    split_ifs at hs
    · cases hs
      refine h.read hlog hprocessed rfl rfl hlater rfl rfl (Option.some.inj happly) ?_ rfl
        fun h0 => (nomatch h0)
      rw [noticesOf_other _ _ (by intro _ h0; cases h0)]
      exact hnotices
    · cases hs
      refine h.read hlog hprocessed rfl rfl hlater rfl rfl (Option.some.inj happly) ?_ rfl
        fun h0 => (nomatch h0)
      rw [noticesOf_other _ _ (by intro _ h0; cases h0)]
      exact hnotices
    · cases hs
      exact h.fails (by simp [mismatch])
  · cases hs
    exact h.fails (by simp [mismatch])
  · cases hs
    exact h.fails (by simp [mismatch])

lemma Reading.receiveLate (h : Reading base s) (hl : Listing base s) {v : Tracks} {x : Selected}
    (hv : s.consumer.view = some v) (hs : s.receiveLate decode v x = some s') :
    Reading base s' := by
  unfold System.receiveLate at hs
  split at hs
  · cases hs
  · rename_i objects down hdown
    obtain ⟨seen, after, later, hlog, hprocessed, hlater, happly, hnotices⟩ := h.first hl hv hdown
    dsimp only at hs
    split at hs
    · rename_i error herror
      cases hs
      exact h.fails (receiveRings_error herror)
    · cases hs
      refine h.read hlog hprocessed rfl rfl hlater rfl rfl (Option.some.inj happly) ?_ rfl
        fun h0 => (nomatch h0)
      rw [noticesOf_other _ _ (by intro _ h0; cases h0)]
      exact hnotices
  · cases hs
    exact h.fails (by simp [mismatch])

end Jackstay.Handshake
