import Jackstay.Input.Sound
import Jackstay.Input.Mailbox

/-!
The epochs that a controller hears of, and their geometries.

A target announces an epoch by a `Reset`, with the geometry of the moment. While nothing is being
cleaned up, the last epoch it has announced is the current one, and its geometry is that of the
target.

* `renewals`: the epochs among some statuses.
* `State.Announced`: the epochs that have been announced to a controller; `heard` are those that
  have left its mailbox, or that its client was welcomed with.
* `State.Announced.call`: every call keeps it.
-/

namespace Jackstay.Input

/-- The epoch that a status announces. -/
def Status.renewal : Status → Option (UInt64 × Geometry)
  | .reset epoch geometry => some (epoch, geometry)
  | _ => none

/-- The epochs that these statuses announce. -/
def renewals (statuses : List Status) : List (UInt64 × Geometry) :=
  statuses.filterMap Status.renewal

lemma renewals_append (xs ys : List Status) : renewals (xs ++ ys) = renewals xs ++ renewals ys :=
  List.filterMap_append

/-- What `poll` takes out of the mailbox of this controller. -/
def yields (c : UInt64) (s : State) : Call → List Status
  | .poll p => if p.id = c then (s.mailboxes c).head?.toList else []
  | _ => []

namespace State

variable {s s' : State} {a : Active} {c : UInt64} {heard : List (UInt64 × Geometry)}

/-- **The epochs that have been announced to a controller** come in order, up to its own epoch. The
last is its own, with the geometry of the target, unless something is being cleaned up. -/
structure Announced (s : State) (c : UInt64) (heard : List (UInt64 × Geometry)) : Prop where
  known : c ≤ s.nextController
  increasing : ((heard ++ renewals (s.mailboxes c)).map (·.1)).Pairwise (· < ·)
  le : ∀ a, s.active = some a → a.id = c → ∀ x ∈ heard ++ renewals (s.mailboxes c), x.1 ≤ a.epoch
  current : ∀ a, s.active = some a → a.id = c → s.barrier = none → s.cleaning = false →
    (heard ++ renewals (s.mailboxes c)).getLast? = some (a.epoch, s.config.geometry)

namespace Announced

/-- A step that announces nothing, and that leaves the epoch and the geometry. -/
lemma of_same (h : s.Announced c heard) (hnext : s.nextController ≤ s'.nextController)
    (hbox : renewals (s'.mailboxes c) = renewals (s.mailboxes c))
    (hactive : ∀ a', s'.active = some a' → a'.id = c → ∃ a, s.active = some a ∧ a.id = c ∧
      a'.epoch = a.epoch)
    (hquiet : s'.active ≠ none → s'.barrier = none → s'.cleaning = false →
      s.barrier = none ∧ s.cleaning = false ∧ s'.config.geometry = s.config.geometry) :
    s'.Announced c heard := by
  refine ⟨UInt64.le_trans h.known hnext, ?_, fun a' ha' hid => ?_, fun a' ha' hid hb hc => ?_⟩
  · rw [hbox]
    exact h.increasing
  · obtain ⟨a, ha, hid, hepoch⟩ := hactive a' ha' hid
    rw [hbox, hepoch]
    exact h.le a ha hid
  · obtain ⟨a, ha, hid, hepoch⟩ := hactive a' ha' hid
    obtain ⟨hb, hc, hgeometry⟩ := hquiet (by rw [ha']; exact Option.some_ne_none a') hb hc
    rw [hbox, hepoch, hgeometry]
    exact h.current a ha hid hb hc

/-- The mailbox overflows: what it announced is gone, and the controller has to end. -/
lemma overflow (h : s.Announced c heard) (a : Active) (rest : List Work) :
    (s.overflow a rest).Announced c heard := by
  by_cases hid : c = a.id
  · have hbox : renewals ((s.overflow a rest).mailboxes c) = [] := by
      show renewals (Function.update s.mailboxes a.id [.closed .overflow false] c) = []
      rw [hid, Function.update_self]
      rfl
    have hincreasing := h.increasing
    rw [List.map_append] at hincreasing
    refine ⟨h.known, ?_, fun b hb hbid x hx => ?_, by rintro _ _ _ ⟨⟩⟩
    · rw [hbox, List.append_nil]
      exact (List.pairwise_append.mp hincreasing).1
    · rw [hbox, List.append_nil] at hx
      exact h.le b hb hbid x (List.mem_append_left _ hx)
  · refine h.of_same (UInt64.le_refl _) ?_ (fun b hb hbid => ⟨b, hb, hbid, rfl⟩) (by rintro _ ⟨⟩)
    exact congrArg renewals (Function.update_of_ne hid _ _)

/-- Statuses reach a mailbox that announce no epoch. -/
lemma posts (h : s.Announced c heard) {statuses : List Status} {queue kept : List Work}
    (hnone : renewals statuses = []) (hp : s.Posts a statuses queue kept s') :
    s'.Announced c heard := by
  cases hp with
  | overflowed rest _ _ => exact h.overflow a rest
  | appended _ =>
    refine h.of_same (UInt64.le_refl _) ?_ (fun b hb hid => ⟨b, hb, hid, rfl⟩) fun _ hb hc => ⟨hb, hc, rfl⟩
    by_cases hid : c = a.id
    · rw [hid]
      show renewals (Function.update s.mailboxes a.id _ a.id) = _
      rw [Function.update_self, renewals_append, hnone, List.append_nil]
    · exact congrArg renewals (Function.update_of_ne hid _ _)

lemma counts (h : s.Announced c heard) (hp : s.Counts a s') : s'.Announced c heard := by
  cases hp with
  | overflowed _ => exact h.overflow a []
  | merged rest count hbox =>
    refine h.of_same (UInt64.le_refl _) ?_ (fun b hb hid => ⟨b, hb, hid, rfl⟩) fun _ hb hc => ⟨hb, hc, rfl⟩
    by_cases hid : c = a.id
    · rw [hid]
      show renewals (Function.update s.mailboxes a.id _ a.id) = _
      rw [Function.update_self, hbox, renewals_append, renewals_append]
      rfl
    · exact congrArg renewals (Function.update_of_ne hid _ _)
  | appended _ =>
    refine h.of_same (UInt64.le_refl _) ?_ (fun b hb hid => ⟨b, hb, hid, rfl⟩) fun _ hb hc => ⟨hb, hc, rfl⟩
    by_cases hid : c = a.id
    · rw [hid]
      show renewals (Function.update s.mailboxes a.id _ a.id) = _
      rw [Function.update_self, renewals_append]
      exact List.append_nil _
    · exact congrArg renewals (Function.update_of_ne hid _ _)

lemma renewals_rejections (works : List Work) : renewals (rejections works) = [] := by
  rw [renewals, rejections, List.filterMap_map, List.filterMap_eq_nil_iff]
  exact fun _ _ => rfl

/-- A cancellation. -/
lemma cancels (h : s.Announced c heard) {scope : Scope} {reason : Reason} {ending : Bool}
    (hp : s.Cancels scope reason ending s') : s'.Announced c heard := by
  cases hp with
  | inactive _ => exact h
  | sufficed _ _ _ => exact h
  | barred a s' ha hf hp =>
    refine Announced.posts (s := { s with barrier := some _ }) ?_ (renewals_rejections _) hp
    exact h.of_same (UInt64.le_refl _) rfl (fun b hb hid => ⟨b, hb, hid, rfl⟩) (by rintro _ ⟨⟩)

lemma renewals_refusals (works : List Work) : renewals (works.filterMap s.refusal) = [] := by
  rw [renewals, List.filterMap_filterMap, List.filterMap_eq_nil_iff]
  intro w _
  rw [refusal]
  cases s.bind w with
  | error e => rfl
  | ok bound =>
    cases bound with
    | none => rfl
    | some bound => rfl

/-- The statuses that are left announce no more. -/
lemma renewals_posts {statuses : List Status} {queue kept : List Work}
    (hnone : renewals statuses = []) (hp : s.Posts a statuses queue kept s') :
    (renewals (s'.mailboxes c)).Sublist (renewals (s.mailboxes c)) := by
  by_cases hid : c = a.id
  · rw [hid]
    cases hp with
    | overflowed rest _ _ =>
      show (renewals (Function.update s.mailboxes a.id _ a.id)).Sublist _
      rw [Function.update_self]
      exact List.nil_sublist _
    | appended _ =>
      show (renewals (Function.update s.mailboxes a.id _ a.id)).Sublist _
      rw [Function.update_self, renewals_append, hnone, List.append_nil]
  · rw [(hp.mailbox_of_ne hid).1]

/-- The controller has ended. -/
lemma ended (h : s.Announced c heard) (hnext : s'.nextController = s.nextController)
    (hnone : s'.active = none)
    (hbox : (renewals (s'.mailboxes c)).Sublist (renewals (s.mailboxes c))) :
    s'.Announced c heard := by
  refine ⟨hnext ▸ h.known, h.increasing.sublist ?_, fun a ha => ?_, fun a ha => ?_⟩
  · exact (hbox.append_left heard).map _
  · cases hnone.symm.trans ha
  · cases hnone.symm.trans ha

lemma lt_succ {n m : UInt64} (h : n ≤ m) (hlast : m.toNat + 1 < 2 ^ 64) : n < m + 1 := by
  rw [UInt64.le_iff_toNat_le] at h
  rw [UInt64.lt_iff_toNat_lt, UInt64.toNat_add]
  have hone : (1 : UInt64).toNat = 1 := rfl
  rw [hone, Nat.mod_eq_of_lt hlast]
  omega

/-- A cleanup that ends nothing begins an epoch, and announces it. -/
lemma renew (h : s.Announced c heard) (ha : s.active = some a) (hlast : a.epoch.toNat + 1 < 2 ^ 64)
    {b : Active} (hid : b.id = a.id) (hepoch : b.epoch = a.epoch + 1) {queue kept : List Work}
    {mid : State} (hmid : mid = { s with flight := none, active := some b, queue := mid.queue })
    (hp : mid.Posts a [.reset (a.epoch + 1) mid.config.geometry] queue kept s') :
    s'.Announced c heard := by
  have hnext : s'.nextController = s.nextController := by
    rw [hp.frame.nextController, hmid]
  have hactive : s'.active = some b := by
    rw [hp.frame.active, hmid]
  have hconfig : s'.config = mid.config := hp.frame.config
  by_cases hc : c = a.id
  · have hle : ∀ x ∈ heard ++ renewals (s.mailboxes c), x.1 < a.epoch + 1 := fun x hx =>
      lt_succ (h.le a ha hc.symm x hx) hlast
    cases hp with
    | overflowed rest _ _ =>
      have hbox : renewals ((mid.overflow a rest).mailboxes c) = [] := by
        show renewals (Function.update mid.mailboxes a.id [.closed .overflow false] c) = []
        rw [hc, Function.update_self]
        rfl
      have hincreasing := h.increasing
      rw [List.map_append] at hincreasing
      refine ⟨hnext ▸ h.known, ?_, fun a' ha' _ x hx => ?_, by rintro _ _ _ ⟨⟩⟩
      · rw [hbox, List.append_nil]
        exact (List.pairwise_append.mp hincreasing).1
      · cases hactive.symm.trans ha'
        rw [hbox, List.append_nil] at hx
        rw [hepoch]
        exact UInt64.le_of_lt (hle x (List.mem_append_left _ hx))
    | appended _ =>
      have hbox : heard ++ renewals ((({ mid with queue } : State).append a
          [.reset (a.epoch + 1) mid.config.geometry]).mailboxes c) =
          heard ++ renewals (s.mailboxes c) ++ [(a.epoch + 1, mid.config.geometry)] := by
        rw [List.append_assoc, hc]
        show heard ++ renewals (Function.update mid.mailboxes a.id _ a.id) = _
        rw [Function.update_self, renewals_append, hmid]
        rfl
      refine ⟨hnext ▸ h.known, ?_, fun a' ha' _ x hx => ?_, fun a' ha' _ _ _ => ?_⟩
      · rw [hbox, List.map_append]
        refine List.pairwise_append.mpr ⟨h.increasing, List.pairwise_singleton _ _, ?_⟩
        intro x hx y hy
        obtain ⟨z, hz, rfl⟩ := List.mem_map.mp hx
        rw [List.map_singleton, List.mem_singleton] at hy
        rw [hy]
        exact hle z hz
      · cases hactive.symm.trans ha'
        rw [hbox] at hx
        rw [hepoch]
        rcases List.mem_append.mp hx with hx | hx
        · exact UInt64.le_of_lt (hle x hx)
        · rw [List.mem_singleton.mp hx]
          exact UInt64.le_refl _
      · cases hactive.symm.trans ha'
        rw [hbox, List.getLast?_concat, hepoch]
        rfl
  · have hbox : s'.mailboxes c = s.mailboxes c := by
      rw [(hp.mailbox_of_ne hc).1, hmid]
    have hother : ∀ a', s'.active = some a' → a'.id ≠ c := by
      intro a' ha' hid'
      cases hactive.symm.trans ha'
      exact hc (hid'.symm.trans hid)
    refine ⟨hnext ▸ h.known, ?_, fun a' ha' hid' => absurd hid' (hother a' ha'),
      fun a' ha' hid' => absurd hid' (hother a' ha')⟩
    rw [hbox]
    exact h.increasing

/-- **What a call does** keeps what has been announced. -/
lemma acts (h : s.Announced c heard) (ho : s.Owned)
    (hlast : ∀ a, s.active = some a → a.epoch.toNat + 1 < 2 ^ 64) {l : Call} {r : Reply}
    (hacts : s.Acts l r s') : s'.Announced c (heard ++ renewals (yields c s l)) := by
  have hsilent : yields c s l = [] → s'.Announced c heard →
      s'.Announced c (heard ++ renewals (yields c s l)) := by
    intro hyields h'
    rw [hyields]
    exact (List.append_nil heard).symm ▸ h'
  cases hacts with
  | idle _ _ hidle =>
    refine hsilent ?_ h
    cases l with
    | poll p => exact hidle.elim
    | _ => rfl
  | admitted mode now id hfailed hnone hmode hid =>
    have hlt : s.nextController < id := by
      rw [UInt64.lt_iff_toNat_lt]
      omega
    have hne : c ≠ id := UInt64.ne_of_lt (UInt64.lt_of_le_of_lt h.known hlt)
    refine hsilent rfl (h.of_same (UInt64.le_of_lt hlt) ?_ (fun a' ha' hid' => ?_)
      fun _ hb hc => ⟨hb, hc, rfl⟩)
    · exact congrArg renewals (Function.update_of_ne hne _ _)
    · cases ha'
      exact absurd hid'.symm hne
  | cleanup now b a work hflight hbarrier ha hwork =>
    refine hsilent rfl (h.of_same (UInt64.le_refl _) rfl (fun a' ha' hid => ⟨a', ha', hid, rfl⟩)
      fun _ _ hclean => ?_)
    rw [hwork] at hclean
    cases hclean
  | discarded now hnone hflight hbarrier =>
    exact hsilent rfl (h.ended rfl hnone (.refl _))
  | dispatched now a r _ ha hflight hbarrier hd =>
    refine hsilent rfl ?_
    cases hd with
    | refused pre rest _ hq href hposts hend => exact h.posts (renewals_refusals pre) hposts
    | dispatched pre w bound rest hq href hbind hfit =>
      have hclean : s.cleaning = false := by
        rw [cleaning, hflight]
        rfl
      refine h.of_same (UInt64.le_refl _) ?_ (fun a' ha' hid => ⟨a', ha', hid, rfl⟩)
        fun _ hb _ => ⟨hb, hclean, rfl⟩
      by_cases hid : c = a.id
      · rw [hid]
        show renewals (Function.update s.mailboxes a.id _ a.id) = _
        rw [Function.update_self, renewals_append, renewals_refusals, List.append_nil]
      · exact congrArg renewals (Function.update_of_ne hid _ _)
  | completed f event outcome a mid _ hflight hop ha hposts hsame hends =>
    have hclean : s.cleaning = false := by
      rw [cleaning_of_flight hflight, Work.isCleanup, hop]
    obtain ⟨hid, hepoch, -⟩ := a.apply_same event outcome
    have hmid : mid.Announced c heard := by
      refine Announced.posts ?_ rfl hposts
      refine h.of_same (UInt64.le_refl _) rfl (fun a' ha' hid' => ?_) fun _ hb _ => ⟨hb, hclean, rfl⟩
      cases ha'
      exact ⟨a, ha, hid.symm.trans hid', hepoch⟩
    refine hsilent rfl ?_
    by_cases hout : outcome.Ends
    · exact hmid.cancels (hends hout)
    · rw [hsame hout]
      exact hmid
  | cleanupFailed f scope reason outcome a mid hflight hop ha hne hposts =>
    have hbox := renewals_posts (c := c) rfl hposts
    exact hsilent rfl (h.ended hposts.frame.nextController rfl hbox)
  | cleanupEnded f scope reason a mid hflight hop ha hend hposts =>
    have hbox := renewals_posts (c := c) rfl hposts
    exact hsilent rfl (h.ended hposts.frame.nextController rfl hbox)
  | cleanupRenewed f scope reason a _ hflight hop ha hend hbarrier hposts =>
    exact hsilent rfl (h.renew ha (hlast a ha) (b := { a.release scope with epoch := a.epoch + 1 })
      rfl rfl rfl hposts)
  | cleanupBarred f scope reason a hflight hop ha hend hbarrier =>
    refine hsilent rfl (h.of_same (UInt64.le_refl _) rfl (fun a' ha' hid => ?_) fun _ hb => ?_)
    · cases ha'
      exact ⟨a, ha, hid, rfl⟩
    · have hb : s.barrier = none := hb
      rw [hb] at hbarrier
      cases hbarrier
  | geometry geometry _ hvalid hlt hc =>
    refine hsilent rfl ?_
    cases hc with
    | inactive hnone => exact h.ended rfl hnone (.refl _)
    | sufficed a ha hending =>
      refine h.of_same (UInt64.le_refl _) rfl (fun a' ha' hid => ⟨a', ha', hid, rfl⟩)
        fun _ _ hclean => ?_
      -- the flight that ends the controller is a cleanup
      obtain ⟨f, hf, hfe⟩ := (Option.any_eq_true _ _).mp hending
      exact absurd hfe (by rw [ho.not_ending_of_not_cleaning hclean hf]; exact Bool.false_ne_true)
    | barred a _ ha hf hp =>
      refine Announced.posts ?_ (renewals_rejections _) hp
      exact h.of_same (UInt64.le_refl _) rfl (fun a' ha' hid => ⟨a', ha', hid, rfl⟩)
        (by rintro _ ⟨⟩)
  | resolved hfailed hflight =>
    exact hsilent rfl (h.of_same (UInt64.le_refl _) rfl (fun a' ha' hid => ⟨a', ha', hid, rfl⟩)
      fun _ hb hclean => ⟨hb, hclean, rfl⟩)
  | heartbeat p now a ha hid =>
    refine hsilent rfl (h.of_same (UInt64.le_refl _) rfl (fun a' ha' hid' => ?_)
      fun _ hb hclean => ⟨hb, hclean, rfl⟩)
    cases ha'
    exact ⟨a, ha, hid', rfl⟩
  | refused p now epoch sequence event a e ha hid hseq href =>
    refine hsilent rfl (h.of_same (UInt64.le_refl _) rfl (fun a' ha' hid' => ?_)
      fun _ hb hclean => ⟨hb, hclean, rfl⟩)
    cases ha'
    exact ⟨a, ha, hid', rfl⟩
  | superseded p now epoch sequence event a front tail motion _ hready hmotion hq hop htail hcounts =>
    refine hsilent rfl (Announced.counts ?_ hcounts)
    refine h.of_same (UInt64.le_refl _) rfl (fun a' ha' hid' => ?_)
      fun _ hb hclean => ⟨hb, hclean, rfl⟩
    cases ha'
    exact ⟨a, hready.active, hid', rfl⟩
  | overflowed p now epoch sequence event a _ hready hfull hc =>
    refine hsilent rfl (Announced.cancels ?_ hc)
    refine h.of_same (UInt64.le_refl _) rfl (fun a' ha' hid' => ?_)
      fun _ hb hclean => ⟨hb, hclean, rfl⟩
    cases ha'
    exact ⟨a, hready.active, hid', rfl⟩
  | accepted p now epoch sequence event a hready hmotion hlen hcharge =>
    refine hsilent rfl (h.of_same (UInt64.le_refl _) rfl (fun a' ha' hid' => ?_)
      fun _ hb hclean => ⟨hb, hclean, rfl⟩)
    cases ha'
    exact ⟨a, hready.active, hid', rfl⟩
  | reset p a _ ha hid hc => exact hsilent rfl (h.cancels hc)
  | close _ p a _ hl ha hid hc =>
    refine hsilent ?_ (h.cancels hc)
    rcases hl with rfl | rfl
    · rfl
    · rfl
  | polled p =>
    by_cases hid : p.id = c
    · have hyields : yields c s (.poll p) = (s.mailboxes c).head?.toList := if_pos hid
      have hall : (heard ++ renewals (yields c s (.poll p))) ++
          renewals (Function.update s.mailboxes p.id (s.mailboxes p.id).tail c) =
          heard ++ renewals (s.mailboxes c) := by
        rw [hyields, hid, Function.update_self, List.append_assoc, ← renewals_append]
        cases s.mailboxes c with
        | nil => rfl
        | cons st rest => rfl
      refine ⟨h.known, ?_, fun a ha hid' => ?_, fun a ha hid' hb hclean => ?_⟩
      · rw [hall]
        exact h.increasing
      · rw [hall]
        exact h.le a ha hid'
      · rw [hall]
        exact h.current a ha hid' hb hclean
    · refine hsilent (if_neg hid) (h.of_same (UInt64.le_refl _) ?_
        (fun a' ha' hid' => ⟨a', ha', hid', rfl⟩) fun _ hb hclean => ⟨hb, hclean, rfl⟩)
      exact congrArg renewals (Function.update_of_ne (Ne.symm hid) _ _)

/-- While nothing is being cleaned up, the epoch of the controller has the geometry of the target. -/
lemma geometry_eq (h : s.Announced c heard) (ha : s.active = some a) (hid : a.id = c)
    (hb : s.barrier = none) (hclean : s.cleaning = false) {x : UInt64 × Geometry} (hx : x ∈ heard)
    (hepoch : x.1 = a.epoch) : x.2 = s.config.geometry := by
  have hnodup : ((heard ++ renewals (s.mailboxes c)).map (·.1)).Nodup :=
    h.increasing.imp UInt64.ne_of_lt
  have hlast := List.mem_of_getLast? (h.current a ha hid hb hclean)
  have hsame := List.inj_on_of_nodup_map hnodup (List.mem_append_left _ hx) hlast hepoch
  rw [hsame]

/-- **Every call** keeps what has been announced. -/
lemma call (h : s.Announced c heard) (hs : Reached s)
    (hlast : ∀ a, s.active = some a → a.epoch.toNat + 1 < 2 ^ 64) (l : Call) :
    (s.call l).1.Announced c (heard ++ renewals (yields c s l)) := by
  have htimed : (s.timed l).Announced c heard := by
    rcases s.timed_cases l with heq | hc
    · rwa [heq]
    · exact h.cancels hc
  have hactive : (s.timed l).active = s.active := by
    rcases s.timed_cases l with heq | hc
    · rw [heq]
    · exact hc.frame.active
  have hacts := htimed.acts (State.owned_of_reached (hs.timed l)) (by rwa [hactive])
    (State.acts_of_call l (hs.timed l).linked)
  have hyields : yields c (s.timed l) l = yields c s l := by
    cases l with
    | poll p => rfl
    | _ => rfl
  rwa [hyields] at hacts

end Announced

end State

end Jackstay.Input
