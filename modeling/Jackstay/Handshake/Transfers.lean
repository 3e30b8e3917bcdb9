import Mathlib.Data.List.Forall2
import Jackstay.Handshake.Attachment

/-!
What the host passes for the tracks that it admits, and what the consumer takes it for.

* `Owns`: a ring is the one of a track.
* `Delivers`: a transfer is what the consumer waits for; `Delivers.receiveRings`: then its
  rings are mapped, each as the ring of its track.
* `admittedRings_owned`: in the handshake the host passes the first ring of each id.
* `lateRings_owned`: for a late selection it passes every ring of the id.
-/

namespace Jackstay.Handshake

variable {decode : List UInt8 → Option Audio.Descriptor}

/-- The ring is the one of the track. -/
structure Owns (decode : List UInt8 → Option Audio.Descriptor) (t : Track) (p : Playback) :
    Prop where
  id : p.id = t.id
  recording : p.recording = decide (t.kind = .recording)
  fits : t.fits decode p = true

/-- A doorbell is passed with these rings. -/
def newBell (bell video : Bool) (rings : List Playback) : Bool :=
  !bell && (video || rings.any fun p => !p.recording)

/-- The objects of a transfer: a new doorbell, and the rings. -/
def ringObjects (bell video : Bool) (rings : List Playback) : List Object :=
  (if newBell bell video rings then [.page, .wake] else []) ++ rings.map .ring

/-- A transfer is what the consumer waits for. -/
def Delivers (decode : List UInt8 → Option Audio.Descriptor) (e : Expected)
    (objects : List Object) : Prop :=
  ∃ rings, objects = (if e.bell then [.page, .wake] else []) ++ rings.map .ring ∧
    List.Forall₂ (Owns decode) e.tracks rings

/-- What has been mapped is the ring of its track, with the access of its kind. -/
structure Mapped.Right (m : Mapped) : Prop where
  id : m.ring.id = m.id
  writable : m.ring.recording = m.writable
  fits : m.ring.fits m.descriptor = true

variable {e : Expected} {objects : List Object} {t : Track} {p : Playback}

lemma ringObjects_delivers (bell video : Bool) {tracks : List Track} {rings : List Playback}
    (hrings : List.Forall₂ (Owns decode) tracks rings) (haudio : ∀ t ∈ tracks, t.kind.audio = true) :
    Delivers decode (expect bell video tracks) (ringObjects bell video rings) ∧
      (expect bell video tracks).bell = newBell bell video rings := by
  have hany : (tracks.any fun t => t.kind == .playback) = rings.any fun p => !p.recording := by
    induction hrings with
    | nil => rfl
    | @cons t p tracks rings hp _ ih =>
        have hkind : (t.kind == .playback) = !p.recording := by
          have ht := haudio t List.mem_cons_self
          rw [hp.recording]
          cases hk : t.kind with
          | playback => rfl
          | recording => rfl
          | _ =>
              rw [hk] at ht
              cases ht
        rw [List.any_cons, List.any_cons, hkind,
          ih fun x hx => haudio x (List.mem_cons_of_mem _ hx)]
  have hbell : (expect bell video tracks).bell = newBell bell video rings := by
    rw [expect, hany]
    rfl
  refine ⟨⟨rings, ?_, hrings⟩, hbell⟩
  rw [hbell]
  rfl

lemma Delivers.roles (h : Delivers decode e objects) : objects.map Object.role = e.roles := by
  obtain ⟨rings, rfl, hrings⟩ := h
  have htail : (rings.map Object.ring).map Object.role =
      e.tracks.map fun t => .ring t.id (t.kind == .recording) := by
    generalize e.tracks = tracks at hrings
    induction hrings with
    | nil => rfl
    | cons hp _ ih =>
        rw [List.map_cons, List.map_cons, List.map_cons, ih]
        refine congrArg (· :: _) ?_
        show Role.ring _ _ = Role.ring _ _
        rw [hp.id, hp.recording]
        rfl
  rw [List.map_append, htail, Expected.roles]
  split_ifs
  · rfl
  · rfl

lemma Owns.mapRing (h : Owns decode t p) :
    ∃ m, mapRing decode t (.ring p) = .ok m ∧ m.Right := by
  have hfits := h.fits
  rw [Track.fits] at hfits
  cases hd : decode t.descriptor with
  | none =>
      rw [hd] at hfits
      cases hfits
  | some d =>
      rw [hd] at hfits
      have hfits : p.fits d = true := hfits
      refine ⟨⟨t.id, t.kind == .recording, d, p⟩, ?_, h.id, h.recording, hfits⟩
      have haccess : (p.fits d && (!(t.kind == .recording) || p.recording)) = true := by
        rw [hfits, h.recording, Bool.true_and]
        exact Bool.not_or_self _
      unfold Handshake.mapRing
      rw [hd]
      exact if_pos haccess

/-- **A transfer that is waited for is mapped.** -/
lemma Delivers.receiveRings (h : Delivers decode e objects) :
    ∃ mapped, receiveRings decode e objects = .ok mapped ∧ ∀ m ∈ mapped, m.Right := by
  have hlength : objects.length = e.roles.length := by
    rw [← h.roles, List.length_map]
  obtain ⟨rings, hobjects, hrings⟩ := h
  have hdrop : objects.drop (if e.bell then 2 else 0) = rings.map .ring := by
    rw [hobjects]
    split_ifs
    · rfl
    · rfl
  rw [Handshake.receiveRings, if_neg (by omega), if_neg (by omega), hdrop]
  clear hdrop hobjects hlength
  generalize e.tracks = tracks at hrings
  induction hrings with
  | nil => exact ⟨[], rfl, fun m hm => (nomatch hm)⟩
  | @cons t p tracks rings hp _ ih =>
      obtain ⟨m, hm, hright⟩ := hp.mapRing
      obtain ⟨mapped, hmapped, hall⟩ := ih
      refine ⟨m :: mapped, ?_, fun x hx => ?_⟩
      · rw [List.map_cons, List.zip_cons_cons, List.mapM_cons]
        show (mapRing decode t (.ring p) >>= _) = _
        rw [hm]
        show (_ >>= _) = _
        rw [hmapped]
        rfl
      · rcases List.mem_cons.mp hx with rfl | hx
        · exact hright
        · exact hall x hx

/-- Nothing is passed where nothing is expected. -/
lemma Delivers.eq_nil (h : Delivers decode e objects) : objects = [] ↔ e.roles = [] := by
  rw [← h.roles, List.map_eq_nil_iff]

lemma sendRings_eq {w : World} {leases : List Playback} {bell video : Bool}
    {rings : List Playback} (h : ∀ p ∈ rings, p.recording = true → p ∈ leases) :
    sendRings w leases bell video rings =
      some (bell || newBell bell video rings, ringObjects bell video rings) := by
  have hall : rings.all (·.fd w leases) = true := by
    rw [List.all_eq_true]
    intro p hp
    cases hr : p.recording with
    | false => rw [Playback.fd, hr, Bool.not_false, Bool.true_or, Bool.true_or]
    | true =>
        have hlease : leases.contains p = true := List.contains_iff_mem.mpr (h p hp hr)
        rw [Playback.fd, hlease, Bool.or_true]
  exact if_pos hall

/-! ### Lists in which an id is found once -/

lemma find?_of_nodup {tracks : List Track} (hids : (tracks.map (·.id)).Nodup) (ht : t ∈ tracks) :
    tracks.find? (fun x => x.id == t.id) = some t := by
  induction tracks with
  | nil => cases ht
  | cons x tracks ih =>
      obtain ⟨hnew, hids⟩ := List.nodup_cons.mp hids
      rcases List.mem_cons.mp ht with rfl | ht
      · exact List.find?_cons_of_pos (by simp)
      · have hne : x.id ≠ t.id := fun h0 => hnew (List.mem_map.mpr ⟨t, ht, h0.symm⟩)
        rw [List.find?_cons_of_neg (by simpa using hne)]
        exact ih hids ht

lemma filter_of_nodup {tracks : List Track} (hids : (tracks.map (·.id)).Nodup) (ht : t ∈ tracks)
    (q : Track → Bool) :
    tracks.filter (fun x => x.id == t.id && q x) = if q t then [t] else [] := by
  induction tracks with
  | nil => cases ht
  | cons x tracks ih =>
      obtain ⟨hnew, hids⟩ := List.nodup_cons.mp hids
      rcases List.mem_cons.mp ht with rfl | ht
      · have hrest : tracks.filter (fun x => x.id == t.id && q x) = [] := by
          refine List.filter_eq_nil_iff.mpr fun y hy => ?_
          have hne : y.id ≠ t.id := fun h0 => hnew (List.mem_map.mpr ⟨y, hy, h0⟩)
          simp [hne]
        rw [List.filter_cons, hrest, beq_self_eq_true, Bool.true_and]
      · have hne : x.id ≠ t.id := fun h0 => hnew (List.mem_map.mpr ⟨t, ht, h0.symm⟩)
        rw [List.filter_cons_of_neg (by simp [hne])]
        exact ih hids ht

/-- The first that meets one condition meets the other. -/
lemma find?_and {α : Type*} {xs : List α} {f g : α → Bool} {x : α} (h : xs.find? f = some x)
    (hg : g x = true) : xs.find? (fun y => f y && g y) = some x := by
  induction xs with
  | nil => cases h
  | cons y xs ih =>
      by_cases hf : f y = true
      · rw [List.find?_cons_of_pos hf] at h
        cases h
        exact List.find?_cons_of_pos (by rw [hf, hg]; rfl)
      · rw [List.find?_cons_of_neg hf] at h
        rw [List.find?_cons_of_neg (by simp [hf])]
        exact ih h

lemma forall₂_filterMap {α β γ : Type*} {R : γ → β → Prop} {f : α → Option β} {g : α → γ}
    {xs : List α} (h : ∀ x ∈ xs, ∃ y, f x = some y ∧ R (g x) y) :
    List.Forall₂ R (xs.map g) (xs.filterMap f) := by
  induction xs with
  | nil => exact .nil
  | cons x xs ih =>
      obtain ⟨y, hy, hr⟩ := h x List.mem_cons_self
      rw [List.map_cons, List.filterMap_cons_some hy]
      exact .cons hr (ih fun z hz => h z (List.mem_cons_of_mem _ hz))

/-! ### Admission -/

lemma answerSelection_ids (w : World) (offer : List Track) (target : Bool) (playback : List Playback)
    (selection : List Selected) (leases : List Playback) :
    (answerSelection w offer target playback selection leases).1.map (·.id) = selection.map (·.id) := by
  induction selection generalizing leases with
  | nil => rfl
  | cons s selection ih => exact congrArg (s.id :: ·) (ih _)

/-- A writer that has been admitted is the first ring of the id. -/
lemma claim_none {w : World} {id : ℕ} {write : Bool} {playback leases : List Playback}
    (h : (claim w id write playback leases).1 = none) : ∃ p,
      playback.find? (fun p => p.id == id) = some p ∧ p ∈ (claim w id write playback leases).2 := by
  rw [claim] at h ⊢
  split at h
  · rename_i p hp
    split_ifs at h ⊢
    exact ⟨p, hp, List.mem_append_right _ List.mem_cons_self⟩
  · cases h

lemma claim_subset (w : World) (id : ℕ) (write : Bool) (playback leases : List Playback) :
    leases ⊆ (claim w id write playback leases).2 := by
  rw [claim]
  split
  · split_ifs
    · exact List.subset_append_left _ _
    · exact List.Subset.refl _
  · exact List.Subset.refl _

/-- The track of an admission. -/
structure Admits (offer : List Track) (target : Bool) (playback leases : List Playback) (id : ℕ)
    (t : Track) : Prop where
  found : offer.find? (fun x => x.id == id) = some t
  target : t.kind = .input → target = true
  claimed : t.kind = .recording →
    ∃ p, playback.find? (fun p => p.id == t.id) = some p ∧ p ∈ leases

variable {w : World} {offer : List Track} {target : Bool} {playback leases leases' : List Playback}

lemma refusal_none {s : Selected}
    (h : (refusal w offer target playback leases s).1 = none) :
    ∃ t, Admits offer target playback (refusal w offer target playback leases s).2 s.id t := by
  unfold refusal at h ⊢
  split at h
  · cases h
  · rename_i t ht
    split_ifs at h ⊢ with hwrite hinput hrecording
    · obtain ⟨p, hp, hmem⟩ := claim_none h
      refine ⟨t, ht, fun h0 => ?_, fun _ => ⟨p, hp, hmem⟩⟩
      cases hrecording.symm.trans h0
    · refine ⟨t, ht, fun h0 => ?_, fun h0 => absurd h0 hrecording⟩
      by_contra hno
      exact hinput ⟨h0, Or.inr (by simpa using hno)⟩

lemma refusal_subset (s : Selected) :
    leases ⊆ (refusal w offer target playback leases s).2 := by
  unfold refusal
  split
  · exact List.Subset.refl _
  · split_ifs
    · exact List.Subset.refl _
    · exact List.Subset.refl _
    · exact claim_subset _ _ _ _ _
    · exact List.Subset.refl _

lemma answerSelection_subset (selection : List Selected) (leases : List Playback) :
    leases ⊆ (answerSelection w offer target playback selection leases).2 := by
  induction selection generalizing leases with
  | nil => exact List.Subset.refl _
  | cons s selection ih => exact List.Subset.trans (refusal_subset s) (ih _)

lemma Admits.mono {id : ℕ} (h : Admits offer target playback leases id t)
    (hsub : leases ⊆ leases') : Admits offer target playback leases' id t := by
  refine ⟨h.found, h.target, fun hrecording => ?_⟩
  obtain ⟨p, hp, hmem⟩ := h.claimed hrecording
  exact ⟨p, hp, hsub hmem⟩

/-- **What the host admits**: a track of its offer; input for a target, and recording for a
writer that holds its ring. -/
lemma answerSelection_admits (selection : List Selected) (leases : List Playback) :
    ∀ a ∈ (answerSelection w offer target playback selection leases).1, a.refusal = none →
      ∃ t, Admits offer target playback
      (answerSelection w offer target playback selection leases).2 a.id t := by
  induction selection generalizing leases with
  | nil => exact fun a ha => (nomatch ha)
  | cons s selection ih =>
      intro a ha hnone
      have hsub : (refusal w offer target playback leases s).2 ⊆
          (answerSelection w offer target playback selection
            (refusal w offer target playback leases s).2).2 :=
        answerSelection_subset selection _
      rcases List.mem_cons.mp ha with rfl | ha
      · obtain ⟨t, ht⟩ := refusal_none hnone
        exact ⟨t, ht.mono hsub⟩
      · exact ih _ a ha hnone

/-- Input is admitted only for a target. -/
lemma answerSelection_target {selection : List Selected} {leases : List Playback}
    (h : .input ∈ channelKinds offer (answerSelection w offer target playback selection leases).1) :
    target = true := by
  obtain ⟨hmem, -⟩ := List.mem_filter.mp h
  obtain ⟨t, ht, hkind⟩ := List.mem_map.mp hmem
  obtain ⟨a, ha, hfound⟩ := List.mem_filterMap.mp ht
  obtain ⟨ha, hnone⟩ := List.mem_filter.mp ha
  obtain ⟨t', hadmits⟩ := answerSelection_admits selection leases a ha (Option.isNone_iff_eq_none.mp hnone)
  cases hadmits.found.symm.trans hfound
  exact hadmits.target hkind

/-! ### The rings of the handshake -/

/-- The first ring of the id is of the kind of the track. -/
def Track.FirstRing (t : Track) (playback : List Playback) : Prop :=
  ∀ p, playback.find? (fun p => p.id == t.id) = some p →
    p.recording = decide (t.kind = .recording)

/-- The rings of the id are just the one of the track: none for a kind without a ring. -/
def Track.OwnRings (t : Track) (playback : List Playback) : Prop :=
  (playback.filter fun p => p.id == t.id).map (·.recording) =
    if t.kind.audio then [decide (t.kind = .recording)] else []

lemma mem_audioTracks {admissions : List Admission} {x : ℕ × Track}
    (h : x ∈ audioTracks offer admissions) : ∃ a ∈ admissions, a.refusal = none ∧
      offer.find? (fun t => t.id == a.id && t.kind.audio) = some x.2 := by
  obtain ⟨y, hy, hx⟩ := List.mem_filterMap.mp h
  obtain ⟨hy, hnone⟩ := List.mem_filter.mp hy
  obtain ⟨t, ht, rfl⟩ := Option.map_eq_some_iff.mp hx
  exact ⟨y.1, List.fst_mem_of_mem_zipIdx hy, Option.isNone_iff_eq_none.mp hnone, ht⟩

lemma audioTracks_audio {admissions : List Admission} :
    ∀ t ∈ (audioTracks offer admissions).map (·.2), t ∈ offer ∧ t.kind.audio = true := by
  intro t ht
  obtain ⟨x, hx, rfl⟩ := List.mem_map.mp ht
  obtain ⟨a, -, -, hfound⟩ := mem_audioTracks hx
  have hmatch := List.find?_some hfound
  exact ⟨List.mem_of_find?_eq_some hfound, (Bool.and_eq_true_iff.mp hmatch).2⟩

/-- An audio track that may be offered has a ring. -/
lemma offerable_ring (h : offerable decode t playback = true) (haudio : t.kind.audio = true) :
    ∃ p ∈ playback, Owns decode t p ∧
      playback.find? (fun p => p.id == t.id && p.recording == decide (t.kind = .recording)) =
        some p := by
  rw [offerable] at h
  simp only [haudio, Bool.not_true, Bool.false_or, Bool.and_eq_true] at h
  obtain ⟨-, -, hany⟩ := h
  obtain ⟨p, hp, hfits⟩ := (Option.any_eq_true _ _).mp hany
  have hmatch := List.find?_some hp
  obtain ⟨hid, hrecording⟩ := Bool.and_eq_true_iff.mp hmatch
  exact ⟨p, List.mem_of_find?_eq_some hp, ⟨by simpa using hid, by simpa using hrecording, hfits⟩, hp⟩

/-- The first ring of the id is the one of the track. -/
lemma FirstRing.owns (h : t.FirstRing playback) (hoffer : offerable decode t playback = true)
    (haudio : t.kind.audio = true) :
    ∃ p, playback.find? (fun p => p.id == t.id) = some p ∧ Owns decode t p := by
  obtain ⟨p, hp, howns, hfind⟩ := offerable_ring hoffer haudio
  have hsome : (playback.find? fun p => p.id == t.id).isSome = true := by
    rw [List.find?_isSome]
    exact ⟨p, hp, by simpa using howns.id⟩
  obtain ⟨q, hq⟩ := Option.isSome_iff_exists.mp hsome
  have hboth := find?_and (g := fun p => p.recording == decide (t.kind = .recording)) hq
    (by rw [h q hq]; exact beq_self_eq_true _)
  cases hfind.symm.trans hboth
  exact ⟨p, hq, howns⟩

lemma validOffer_offerable (h : validOffer decode offer playback = true) (ht : t ∈ offer) :
    offerable decode t playback = true := by
  simp only [validOffer, Bool.and_eq_true, List.all_eq_true] at h
  exact h.1.2 t ht

/-- **The rings that `accept` passes are those of the admitted tracks**, and it holds those
that are written. -/
theorem admittedRings_owned (hvalid : validOffer decode offer playback = true)
    (hids : (offer.map (·.id)).Nodup) {selection : List Selected}
    (hfirst : ∀ x ∈ audioTracks offer (answerSelection w offer target playback selection []).1,
      x.2.FirstRing playback) :
    List.Forall₂ (Owns decode)
      ((audioTracks offer (answerSelection w offer target playback selection []).1).map (·.2))
      ((audioTracks offer (answerSelection w offer target playback selection []).1).filterMap fun x =>
        playback.find? fun p => p.id == x.2.id) ∧
    ∀ p ∈ (audioTracks offer (answerSelection w offer target playback selection []).1).filterMap (fun x =>
        playback.find? fun p => p.id == x.2.id),
      p.recording = true → p ∈ (answerSelection w offer target playback selection []).2 := by
  have hring : ∀ x ∈ audioTracks offer (answerSelection w offer target playback selection []).1,
      ∃ p, playback.find? (fun p => p.id == x.2.id) = some p ∧ Owns decode x.2 p := by
    intro x hx
    obtain ⟨hmem, haudio⟩ := audioTracks_audio x.2 (List.mem_map_of_mem hx)
    exact FirstRing.owns (hfirst x hx) (validOffer_offerable hvalid hmem) haudio
  constructor
  · exact forall₂_filterMap hring
  · intro p hp hrecording
    obtain ⟨x, hx, hfind⟩ := List.mem_filterMap.mp hp
    obtain ⟨q, hq, howns⟩ := hring x hx
    cases hq.symm.trans hfind
    have hkind : x.2.kind = .recording := by
      rw [howns.recording] at hrecording
      exact of_decide_eq_true hrecording
    obtain ⟨a, ha, hnone, hfound⟩ := mem_audioTracks hx
    obtain ⟨t, hadmits⟩ := answerSelection_admits selection [] a ha hnone
    have hid : x.2.id = a.id := by
      have hmatch := List.find?_some hfound
      simpa using (Bool.and_eq_true_iff.mp hmatch).1
    have hsame : offer.find? (fun t => t.id == a.id) = some x.2 := by
      rw [← hid]
      exact find?_of_nodup hids (List.mem_of_find?_eq_some hfound)
    cases hadmits.found.symm.trans hsame
    obtain ⟨q, hq', hmem⟩ := hadmits.claimed hkind
    cases hq'.symm.trans hq
    exact hmem

/-! ### The rings of a late selection -/

/-- **The rings that `serve` passes are those of the selected track**, and it holds the one
that is written. -/
theorem lateRings_owned {n : Notices} {x : Selected} (hids : (n.tracks.map (·.id)).Nodup)
    (hrings : ∀ t ∈ n.tracks, t.kind.audio = true → ∃ p ∈ n.playback, Owns decode t p)
    (hnone : (n.lateRefusal w x).1 = none)
    (hown : ∀ t ∈ n.tracks, t.id = x.id → t.OwnRings n.playback) :
    List.Forall₂ (Owns decode) (n.tracks.filter fun t => t.id == x.id && t.kind.audio)
      (n.playback.filter fun p => p.id == x.id) ∧
    ∀ p ∈ n.playback.filter (fun p => p.id == x.id), p.recording = true →
      p ∈ (n.lateRefusal w x).2 := by
  obtain ⟨t, ht, hid, hclaimed⟩ : ∃ t ∈ n.tracks, t.id = x.id ∧ (t.kind = .recording →
      ∃ p, n.playback.find? (fun p => p.id == x.id) = some p ∧ p ∈ (n.lateRefusal w x).2) := by
    unfold Notices.lateRefusal at hnone ⊢
    split at hnone
    · cases hnone
    · rename_i t hfound
      have hmatch := List.find?_some hfound
      refine ⟨t, List.mem_of_find?_eq_some hfound, by simpa using hmatch, fun hrecording => ?_⟩
      split_ifs at hnone ⊢
      exact claim_none hnone
  have hown := hown t ht hid
  rw [Track.OwnRings, hid] at hown
  rw [← hid, filter_of_nodup hids ht, hid]
  cases haudio : t.kind.audio with
  | false =>
      rw [haudio] at hown
      have hempty : n.playback.filter (fun p => p.id == x.id) = [] := List.map_eq_nil_iff.mp hown
      rw [hempty]
      exact ⟨.nil, fun p hp => (nomatch hp)⟩
  | true =>
      rw [haudio] at hown
      obtain ⟨p, hp, -⟩ := List.map_eq_singleton_iff.mp hown
      obtain ⟨q, hq, howns⟩ := hrings t ht haudio
      have hmem : q ∈ n.playback.filter fun p => p.id == x.id := by
        refine List.mem_filter.mpr ⟨hq, ?_⟩
        rw [howns.id, hid]
        exact beq_self_eq_true _
      rw [hp] at hmem
      cases List.mem_singleton.mp hmem
      rw [hp]
      refine ⟨.cons howns .nil, fun r hr hrecording => ?_⟩
      cases List.mem_singleton.mp hr
      rw [howns.recording] at hrecording
      obtain ⟨r, hr, hlease⟩ := hclaimed (of_decide_eq_true hrecording)
      have hhead : n.playback.find? (fun p => p.id == x.id) = some p := by
        rw [← List.head?_filter, hp]
        rfl
      cases hhead.symm.trans hr
      exact hlease

end Jackstay.Handshake
