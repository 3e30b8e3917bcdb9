import Jackstay.Input.Epochs
import Jackstay.Input.Server

/-!
What a server tells its client of the epochs of the target.

The welcome names the first epoch, and the replies name those that follow. So what a server has
sent names every epoch of its controller up to its mailbox, each with its geometry.

* `Server.issued`: the epochs that a server has named.
* `Server.Told`: what a served target has told, over the calls of everyone else.
* `Server.Told.step`: every step keeps it.
-/

namespace Jackstay.Input

namespace State

variable {s s' : State} {c : UInt64}

/-- **An active controller has been active before**, or it has just been admitted. Only its own
submissions change its last sequence number. -/
lemma Acts.active_of {l : Call} {r : Reply} (h : s.Acts l r s') {b : Active}
    (hb : s'.active = some b) :
    (r = .admitted ⟨b.id, b.mode⟩ ∧ s.nextController < b.id ∧ b.lastSequence = 0) ∨
      ∃ a, s.active = some a ∧ b.id = a.id ∧ b.mode = a.mode ∧ (b.lastSequence = a.lastSequence ∨
        ∃ p now epoch event, l = .submit p now epoch b.lastSequence event ∧ p.id = a.id) := by
  have stays : s'.active = s.active → ∃ a, s.active = some a ∧ b.id = a.id ∧ b.mode = a.mode ∧
      (b.lastSequence = a.lastSequence ∨
        ∃ p now epoch event, l = .submit p now epoch b.lastSequence event ∧ p.id = a.id) :=
    fun heq => ⟨b, heq ▸ hb, rfl, rfl, .inl rfl⟩
  have becomes : ∀ {a d : Active}, s.active = some a → s'.active = some d → d.id = a.id →
      d.mode = a.mode → d.lastSequence = a.lastSequence →
      ∃ a, s.active = some a ∧ b.id = a.id ∧ b.mode = a.mode ∧
        (b.lastSequence = a.lastSequence ∨
          ∃ p now epoch event, l = .submit p now epoch b.lastSequence event ∧ p.id = a.id) := by
    intro a d ha hd hid hmode hlast
    cases hb.symm.trans hd
    exact ⟨a, ha, hid, hmode, .inl hlast⟩
  cases h with
  | admitted mode now id hfailed hnone hmode hid =>
    have hlt : s.nextController < id := UInt64.lt_iff_toNat_lt.mpr (by omega)
    cases hb
    exact .inl ⟨rfl, hlt, rfl⟩
  | dispatched now a r s' ha hf hbar hd =>
    refine .inr (stays ?_)
    cases hd with
    | refused pre rest s' hq href hp hend => exact hp.frame.active
    | dispatched => rfl
  | completed f event outcome a mid s' hf hop ha hp hkeep hcancel =>
    have hmid : mid.active = some (if outcome = .executed then a.apply event else a) :=
      hp.frame.active
    obtain ⟨hid, -, hmode⟩ := a.apply_same event outcome
    refine .inr (becomes ha (d := if outcome = .executed then a.apply event else a) ?_ hid hmode
      (a.apply_lastSequence event outcome))
    by_cases ho : outcome.Ends
    · exact (hcancel ho).frame.active.trans hmid
    · rw [hkeep ho]
      exact hmid
  | cleanupFailed f scope reason outcome a mid hf hop ha ho hp => cases hb
  | cleanupEnded f scope reason a mid hf hop ha hend hp => cases hb
  | cleanupRenewed f scope reason a s' hf hop ha hend hbar hp =>
    exact .inr (becomes ha hp.frame.active rfl rfl rfl)
  | cleanupBarred f scope reason a hf hop ha hend hbar => exact .inr (becomes ha rfl rfl rfl rfl)
  | geometry g s' hv hrev hc => exact .inr (stays hc.frame.active)
  | heartbeat p now a ha hid => exact .inr (becomes ha rfl rfl rfl rfl)
  | refused p now epoch sequence event a e ha hid hseq href =>
    cases hb
    exact .inr ⟨a, ha, rfl, rfl, .inr ⟨p, now, epoch, event, rfl, hid.symm⟩⟩
  | superseded p now epoch sequence event a front tail motion s' hr hm hq hop hmot hcount =>
    cases hb.symm.trans hcount.frame.active
    exact .inr ⟨a, hr.active, rfl, rfl, .inr ⟨p, now, epoch, event, rfl, hr.id.symm⟩⟩
  | overflowed p now epoch sequence event a s' hr hfull hc =>
    cases hb.symm.trans hc.frame.active
    exact .inr ⟨a, hr.active, rfl, rfl, .inr ⟨p, now, epoch, event, rfl, hr.id.symm⟩⟩
  | accepted p now epoch sequence event a hr hmot hroom hbytes =>
    cases hb
    exact .inr ⟨a, hr.active, rfl, rfl, .inr ⟨p, now, epoch, event, rfl, hr.id.symm⟩⟩
  | reset p a s' ha hid hc => exact .inr (stays hc.frame.active)
  | close l p a s' hl ha hid hc => exact .inr (stays hc.frame.active)
  | _ => exact .inr (stays rfl)

lemma timed_frame (s : State) (l : Call) : s.Frame (s.timed l) := by
  rcases s.timed_cases l with heq | hc
  · rw [heq]
    exact .refl s
  · exact hc.frame

/-- Only the geometry of a configuration changes. -/
lemma Acts.config_of {l : Call} {r : Reply} (h : s.Acts l r s') {config : Config}
    (hs : s.config = { config with geometry := s.config.geometry }) :
    s'.config = { config with geometry := s'.config.geometry } := by
  have stays : s'.config = s.config → s'.config = { config with geometry := s'.config.geometry } :=
    fun heq => heq ▸ hs
  cases h with
  | dispatched now a r s' ha hf hb hd =>
    cases hd with
    | refused pre rest s' hq href hp hend => exact stays hp.frame.config
    | dispatched => exact stays rfl
  | completed f event outcome a mid s' hf hop ha hp hkeep hcancel =>
    by_cases ho : outcome.Ends
    · exact stays ((hcancel ho).frame.config.trans hp.frame.config)
    · rw [hkeep ho]
      rw [hkeep ho] at stays
      exact stays hp.frame.config
  | cleanupFailed f scope reason outcome a mid hf hop ha ho hp => exact stays hp.frame.config
  | cleanupEnded f scope reason a mid hf hop ha hend hp => exact stays hp.frame.config
  | cleanupRenewed f scope reason a s' hf hop ha hend hb hp => exact stays hp.frame.config
  | geometry g s' hv hrev hc =>
    rw [hc.frame.config]
    show ({ s.config with geometry := g } : Config) = _
    rw [hs]
  | superseded c now epoch sequence event a front tail motion s' hr hm hq hop hmot hcount =>
    exact stays hcount.frame.config
  | overflowed c now epoch sequence event a s' hr hfull hc => exact stays hc.frame.config
  | reset c a s' ha hid hc => exact stays hc.frame.config
  | close l c a s' hl ha hid hc => exact stays hc.frame.config
  | _ => exact stays rfl

/-- The target takes no other number than that of a submission. -/
lemma call_active_of (hs : Reached s) {l : Call} {b : Active} (hb : (s.call l).1.active = some b) :
    ((s.call l).2 = .admitted ⟨b.id, b.mode⟩ ∧ s.nextController < b.id ∧ b.lastSequence = 0) ∨
      ∃ a, s.active = some a ∧ b.id = a.id ∧ b.mode = a.mode ∧ (b.lastSequence = a.lastSequence ∨
        ∃ p now epoch event, l = .submit p now epoch b.lastSequence event ∧ p.id = a.id) := by
  have hacts := State.acts_of_call l (hs.timed l).linked
  rw [← (s.timed_frame l).active, ← (s.timed_frame l).nextController]
  exact hacts.active_of hb

/-- What an admission leaves. -/
lemma Acts.admits {mode : Mode} {now : ℕ} {c : Controller}
    (h : s.Acts (.admitController mode now) (.admitted c) s') :
    s'.nextController = c.id ∧ s'.mailboxes c.id = [] ∧ ∃ a, s'.active = some a ∧ a.id = c.id ∧
      a.mode = c.mode ∧ a.lastSequence = 0 ∧ a.epoch = 1 := by
  cases h with
  | idle _ _ hidle => exact (not_admitted_of_idles hidle).elim
  | admitted mode now id hfailed hnone hmode hid =>
    exact ⟨rfl, Function.update_self _ _ _, _, rfl, rfl, rfl, rfl, rfl⟩

lemma Announced.admitted {a : Active} (hnext : s.nextController = c) (hbox : s.mailboxes c = [])
    (ha : s.active = some a) (hepoch : a.epoch = 1) : s.Announced c [(1, s.config.geometry)] := by
  have hall : [(1, s.config.geometry)] ++ renewals (s.mailboxes c) = [(1, s.config.geometry)] := by
    rw [hbox]
    rfl
  refine ⟨hnext ▸ UInt64.le_refl _, ?_, fun b hb _ x hx => ?_, fun b hb _ _ _ => ?_⟩
  · rw [hall]
    exact List.pairwise_singleton _ _
  · cases ha.symm.trans hb
    rw [hall] at hx
    rw [List.mem_singleton.mp hx, hepoch]
    exact UInt64.le_refl _
  · cases ha.symm.trans hb
    rw [hall, hepoch]
    rfl

/-- What was heard first becomes the geometry of the moment. -/
lemma Announced.regreet {g : Geometry} (h : s.Announced c [(1, g)]) :
    s.Announced c [(1, s.config.geometry)] := by
  refine ⟨h.known, h.increasing, fun a ha hid x hx => ?_, fun a ha hid hb hclean => ?_⟩
  · rcases List.mem_append.mp hx with hx | hx
    · rw [List.mem_singleton.mp hx]
      exact h.le a ha hid (1, g) (List.mem_append_left _ (List.mem_singleton.mpr rfl))
    · exact h.le a ha hid x (List.mem_append_right _ hx)
  · have hlast := h.current a ha hid hb hclean
    cases hbox : (renewals (s.mailboxes c)).getLast? with
    | none =>
      rw [List.getLast?_eq_none_iff.mp hbox] at hlast ⊢
      have hepoch : 1 = a.epoch := congrArg Prod.fst (Option.some.inj hlast)
      rw [← hepoch]
      rfl
    | some x =>
      rw [List.getLast?_append, hbox] at hlast ⊢
      exact hlast

end State

/-- The epoch that a message of a server names, with its geometry. -/
def Sent.epoch : Sent → Option (UInt64 × Geometry)
  | .welcome _ _ _ epoch config => some (epoch, config.geometry)
  | .reply status => status.renewal
  | _ => none

/-- The epochs that these messages name. -/
def issued (sent : List Sent) : List (UInt64 × Geometry) := sent.filterMap Sent.epoch

@[simp] lemma issued_append (xs ys : List Sent) : issued (xs ++ ys) = issued xs ++ issued ys :=
  List.filterMap_append

/-- What the controller of a server does not call yields it nothing. -/
lemma yields_of_caller {s : State} {c : UInt64} {l : Call} (h : l.caller ≠ some c) :
    yields c s l = [] := by
  cases l with
  | poll p => exact if_neg fun hid => h (congrArg some hid)
  | _ => rfl

namespace Server

/-- The target goes on to name the epochs of its controller. -/
def Names (sv : Server) (c : Controller) : Prop :=
  sv.pc ≠ .welcome ∧ sv.target.Announced c.id (issued sv.sent) ∨
    issued sv.sent = [] ∧ ((∃ ok, sv.pc = .returned ok) ∨
      sv.pc = .welcome ∧ ∃ g, sv.target.Announced c.id [(1, g)])

/-- **What a server has told its client.** -/
structure Told (config : Config) (sv : Server) : Prop where
  reached : Reached sv.target
  fixed : sv.target.config = { config with geometry := sv.target.config.geometry }
  hello : sv.pc = .hello → sv.controller = none ∧ sv.sent = []
  known : ∀ c, sv.controller = some c → c.id ≤ sv.target.nextController
  active : ∀ c, sv.controller = some c → ∀ a, sv.target.active = some a → a.id = c.id →
    a.mode = c.mode ∧ (a.lastSequence = 0 ∨ a.lastSequence ∈ sv.received)
  names : ∀ c, sv.controller = some c → sv.Names c
  welcomed : ∀ mode v id epoch offer, .welcome mode v id epoch offer ∈ sv.sent →
    (∃ c, sv.controller = some c ∧ c.mode = mode) ∧
      offer = { config with geometry := offer.geometry }

/-- The epochs of the target do not wrap. -/
def Epochs (sv : Server) : Prop :=
  ∀ a, sv.target.active = some a → a.epoch.toNat + 1 < 2 ^ 64

variable {config : Config} {sv sv' : Server} {c : Controller}

/-- The worker is at its loop, and stays there. -/
def looping (sv : Server) : Prop := sv.pc ≠ .welcome ∧ ∀ ok, sv.pc ≠ .returned ok

/-- A step names no epoch but those that have left the mailbox. -/
lemma Names.move (h : sv.Names c) {more : List Sent} (hsent : sv'.sent = sv.sent ++ more)
    (htarget : ∀ heard, sv.target.Announced c.id heard →
      sv'.target.Announced c.id (heard ++ issued more))
    (hwelcome : sv'.pc = sv.pc ∨ sv'.pc ≠ .welcome)
    (hpc : sv.looping ∨ issued more = [] ∧ (sv'.pc = sv.pc ∨ ∃ ok, sv'.pc = .returned ok)) :
    sv'.Names c := by
  rcases h with ⟨hne, hall⟩ | ⟨hnone, hpc₀⟩
  · left
    rw [hsent, issued_append]
    refine ⟨?_, htarget _ hall⟩
    rcases hwelcome with heq | hne'
    · rw [heq]
      exact hne
    · exact hne'
  · rcases hpc with ⟨hne, hreturned⟩ | ⟨hmore, hpc⟩
    · rcases hpc₀ with ⟨ok, hok⟩ | ⟨hpc₀, -⟩
      · exact absurd hok (hreturned ok)
      · exact absurd hpc₀ hne
    · refine .inr ⟨by rw [hsent, issued_append, hnone, hmore]; rfl, ?_⟩
      rcases hpc with hpc | hreturned
      · rw [hpc]
        refine hpc₀.imp_right fun hwelcome => ⟨hwelcome.1, hwelcome.2.imp fun g hg => ?_⟩
        have hg := htarget _ hg
        rwa [hmore, List.append_nil] at hg
      · exact .inl hreturned

namespace Told

/-- The worker does not go back to the `Hello`. -/
lemma not_hello (h : Told config sv) (hc : sv.controller = some c)
    (hinside : sv'.pc = sv.pc ∨ sv'.pc ≠ .hello ∧ sv'.pc ≠ .welcome) : sv'.pc ≠ .hello := by
  rcases hinside with heq | ⟨hne, -⟩
  · rw [heq]
    intro h0
    cases hc.symm.trans (h.hello h0).1
  · exact hne

/-- A call of anyone, with what the worker sends for it. -/
lemma call (h : Told config sv) (he : sv.Epochs) (hc : sv.controller = some c) (l : Call)
    (more : List Sent) (htarget : sv'.target = (sv.target.call l).1)
    (hcontroller : sv'.controller = some c)
    (hinside : sv'.pc = sv.pc ∨ sv'.pc ≠ .hello ∧ sv'.pc ≠ .welcome)
    (hsent : sv'.sent = sv.sent ++ more) (hmore : issued more = renewals (yields c.id sv.target l))
    (hreply : ∀ m ∈ more, ∀ mode v id epoch offer, m ≠ .welcome mode v id epoch offer)
    (hreceived : sv.received ⊆ sv'.received)
    (hnumber : ∀ p now epoch sequence event, l = .submit p now epoch sequence event →
      p.id = c.id → sequence ∈ sv'.received)
    (hpc : sv.looping ∨ issued more = [] ∧ (sv'.pc = sv.pc ∨ ∃ ok, sv'.pc = .returned ok)) :
    Told config sv' := by
  have hacts := State.acts_of_call l (h.reached.timed l).linked
  have hframe := sv.target.timed_frame l
  have hnext : sv.target.nextController ≤ sv'.target.nextController := by
    rw [htarget, ← hframe.nextController]
    exact hacts.nextController_le
  have hsame : ∀ d, sv'.controller = some d → d = c := fun d hd => Option.some.inj (hd.symm.trans hcontroller)
  refine ⟨?_, ?_, fun h0 => absurd h0 (h.not_hello hc hinside), fun d hd => ?_,
    fun d hd b hb hid => ?_, fun d hd => ?_, fun mode v id epoch offer hm => ?_⟩
  · rw [htarget]
    obtain ⟨config, tr, hrun⟩ := h.reached
    exact ⟨config, _, hrun.snoc l trivial⟩
  · rw [htarget]
    refine hacts.config_of ?_
    rw [hframe.config]
    exact h.fixed
  · rw [hsame d hd]
    exact UInt64.le_trans (h.known c hc) hnext
  · rw [hsame d hd] at hid ⊢
    rw [htarget] at hb
    rcases State.call_active_of h.reached hb with ⟨-, hlt, -⟩ | ⟨a, ha, hida, hmode, hlast⟩
    · rw [hid] at hlt
      exact absurd hlt (UInt64.not_lt.mpr (h.known c hc))
    · obtain ⟨hmode₀, hlast₀⟩ := h.active c hc a ha (hida.symm.trans hid)
      refine ⟨hmode.trans hmode₀, ?_⟩
      rcases hlast with hlast | ⟨p, now, epoch, event, hl, hp⟩
      · rw [hlast]
        exact hlast₀.imp_right fun hmem => hreceived hmem
      · exact .inr (hnumber p now epoch _ event hl (hp.trans (hida.symm.trans hid)))
  · rw [hsame d hd]
    refine (h.names c hc).move hsent (fun heard hheard => ?_) (hinside.imp_right And.right) hpc
    rw [htarget, hmore]
    exact hheard.call h.reached he l
  · rw [hsent] at hm
    rcases List.mem_append.mp hm with hm | hm
    · obtain ⟨⟨d, hd, hmode⟩, hoffer⟩ := h.welcomed mode v id epoch offer hm
      exact ⟨⟨d, hd ▸ hc ▸ hcontroller, hmode⟩, hoffer⟩
    · exact absurd rfl (hreply _ hm mode v id epoch offer)

/-- A step of the worker that calls nothing. -/
lemma pause (h : Told config sv) (hc : sv.controller = some c) (more : List Sent)
    (htarget : sv'.target = sv.target) (hcontroller : sv'.controller = some c)
    (hinside : sv'.pc = sv.pc ∨ sv'.pc ≠ .hello ∧ sv'.pc ≠ .welcome)
    (hsent : sv'.sent = sv.sent ++ more) (hmore : issued more = [])
    (hreply : ∀ m ∈ more, ∀ mode v id epoch offer, m ≠ .welcome mode v id epoch offer)
    (hreceived : sv'.received = sv.received)
    (hpc : sv.looping ∨ sv'.pc = sv.pc ∨ ∃ ok, sv'.pc = .returned ok) : Told config sv' := by
  have hsame : ∀ d, sv'.controller = some d → sv.controller = some d := by
    intro d hd
    rw [hc, ← hcontroller, hd]
  refine ⟨htarget ▸ h.reached, htarget ▸ h.fixed, fun h0 => absurd h0 (h.not_hello hc hinside),
    fun d hd => ?_, fun d hd a ha hid => ?_, fun d hd => ?_, fun mode v id epoch offer hm => ?_⟩
  · rw [htarget]
    exact h.known d (hsame d hd)
  · rw [hreceived]
    exact h.active d (hsame d hd) a (htarget ▸ ha) hid
  · refine (h.names d (hsame d hd)).move hsent (fun heard hheard => ?_)
      (hinside.imp_right And.right) ?_
    · rw [htarget, hmore, List.append_nil]
      exact hheard
    · exact hpc.imp_right fun hpc => ⟨hmore, hpc⟩
  · rw [hsent] at hm
    rcases List.mem_append.mp hm with hm | hm
    · obtain ⟨⟨d, hd, hmode⟩, hoffer⟩ := h.welcomed mode v id epoch offer hm
      exact ⟨⟨d, hd ▸ hc ▸ hcontroller, hmode⟩, hoffer⟩
    · exact absurd rfl (hreply _ hm mode v id epoch offer)

/-- A step of a server that has no controller. -/
lemma waiting (h : Told config sv) (hc : sv.controller = none) (hc' : sv'.controller = none)
    (htarget : sv'.target = sv.target ∨ ∃ l, sv'.target = (sv.target.call l).1)
    (hsent : ∀ m ∈ sv'.sent, m ∈ sv.sent ∨ ∃ e, m = .reject e)
    (hhello : sv'.pc = .hello → sv'.sent = []) : Told config sv' := by
  have htarget : Reached sv'.target ∧
      sv'.target.config = { config with geometry := sv'.target.config.geometry } := by
    rcases htarget with htarget | ⟨l, htarget⟩
    · rw [htarget]
      exact ⟨h.reached, h.fixed⟩
    · rw [htarget]
      constructor
      · obtain ⟨config, tr, hrun⟩ := h.reached
        exact ⟨config, _, hrun.snoc l trivial⟩
      · refine (State.acts_of_call l (h.reached.timed l).linked).config_of ?_
        rw [(sv.target.timed_frame l).config]
        exact h.fixed
  refine ⟨htarget.1, htarget.2, fun h0 => ⟨hc', hhello h0⟩, fun c h0 => ?_, fun c h0 => ?_,
    fun c h0 => ?_, fun mode v id epoch offer hm => ?_⟩
  · cases hc'.symm.trans h0
  · cases hc'.symm.trans h0
  · cases hc'.symm.trans h0
  · rcases hsent _ hm with hm | ⟨e, hm⟩
    · obtain ⟨⟨c, h0, -⟩, -⟩ := h.welcomed mode v id epoch offer hm
      cases hc.symm.trans h0
    · cases hm

/-- The worker returns. -/
lemma quit (h : Told config sv) (he : sv.Epochs) (ok : Bool) : Told config (sv.quit ok) := by
  cases hc : sv.controller with
  | none =>
    have heq : sv.quit ok = { sv with pc := .returned ok } := by rw [Server.quit, hc]
    rw [heq]
    exact h.waiting hc hc (.inl rfl) (fun m hm => .inl hm) (by rintro ⟨⟩)
  | some c =>
    have heq : sv.quit ok = { sv.on (.drop c) with pc := .returned ok } := by rw [Server.quit, hc]
    rw [heq]
    exact h.call he hc (.drop c) [] rfl hc (.inr ⟨by rintro ⟨⟩, by rintro ⟨⟩⟩) (List.append_nil _).symm rfl (by rintro _ ⟨⟩)
      (List.Subset.refl _) (by rintro _ _ _ _ _ ⟨⟩) (.inr ⟨rfl, .inr ⟨ok, rfl⟩⟩)

/-- A call of anyone but the controller of the server. -/
lemma foreign (h : Told config sv) (he : sv.Epochs) {l : Call}
    (hl : l.caller = none ∨ l.caller ≠ sv.controller.map (·.id)) : Told config (sv.on l) := by
  cases hc : sv.controller with
  | none =>
    exact h.waiting hc hc (.inr ⟨l, rfl⟩) (fun m hm => .inl hm) fun h0 => (h.hello h0).2
  | some c =>
    have hcaller : l.caller ≠ some c.id := by
      intro heq
      rcases hl with hl | hl
      · cases heq.symm.trans hl
      · rw [hc] at hl
        exact hl heq
    refine h.call he hc l [] rfl hc (.inl rfl) (List.append_nil _).symm ?_ (by rintro _ ⟨⟩)
      (List.Subset.refl _) ?_ (.inr ⟨rfl, .inl rfl⟩)
    · rw [yields_of_caller (s := sv.target) hcaller]
      rfl
    · rintro p now epoch sequence event rfl hid
      exact absurd (congrArg some hid) hcaller

/-- A reset that is refused changes nothing. -/
lemma reset_of_error {s : State} {error : Error} (h : (s.call (.reset c)).2 = .error error) :
    (s.call (.reset c)).1 = s := by
  rw [State.call, State.reset] at h ⊢
  split_ifs at h ⊢
  · cases h
  · rfl

/-- A message is handled. -/
lemma handle (h : Told config sv) (he : sv.Epochs) (hc : sv.controller = some c)
    (hloop : sv.looping) (e : ServerEnv) (n : ℕ) (m : Message) : Told config (sv.handle e c n m) := by
  cases m with
  | submit epoch sequence event =>
    have hsent : ∃ more, (sv.handle e c n (.submit epoch sequence event)).sent = sv.sent ++ more ∧
        issued more = [] ∧ ∀ m ∈ more, ∃ status, m = .reply status := by
      rw [Server.handle]
      dsimp only
      split
      · exact ⟨_, rfl, rfl, fun m hm => ⟨_, List.mem_singleton.mp hm⟩⟩
      · exact ⟨[], (List.append_nil _).symm, rfl, by rintro _ ⟨⟩⟩
    obtain ⟨more, hsent, hmore, hreply⟩ := hsent
    refine h.call he hc (.submit c e.now epoch sequence event) more rfl hc (.inr ⟨by rintro ⟨⟩, by rintro ⟨⟩⟩)
      hsent hmore (fun m hm mode v id epoch offer heq => ?_) ?_ ?_ (.inl hloop)
    · obtain ⟨status, hstatus⟩ := hreply m hm
      cases heq.symm.trans hstatus
    · exact fun q hq => List.mem_append_left _ hq
    · rintro p now epoch' sequence' event' hl -
      cases hl
      exact List.mem_append_right _ (List.mem_singleton.mpr rfl)
  | heartbeat =>
    exact h.call he hc (.heartbeat c e.now) [] rfl hc (.inr ⟨by rintro ⟨⟩, by rintro ⟨⟩⟩)
      (List.append_nil _).symm rfl (by rintro _ ⟨⟩) (List.Subset.refl _) (by rintro _ _ _ _ _ ⟨⟩) (.inl hloop)
  | reset =>
    by_cases hr : ∃ error, (sv.target.call (.reset c)).2 = .error error
    · obtain ⟨error, hr⟩ := hr
      have heq : sv.handle e c n .reset = (sv.on (.reset c)).quit false := by
        rw [Server.handle, hr]
      have hreset : Told config (sv.on (.reset c)) :=
        h.call he hc (.reset c) [] rfl hc (.inl rfl) (List.append_nil _).symm rfl (by rintro _ ⟨⟩)
          (List.Subset.refl _) (by rintro _ _ _ _ _ ⟨⟩) (.inl hloop)
      rw [heq]
      refine hreset.quit (fun a ha => he a ?_) false
      rwa [← reset_of_error hr]
    · have heq : sv.handle e c n .reset = { sv.on (.reset c) with pc := .receive (n + 1) } := by
        rw [Server.handle]
        split
        · rename_i error hr'
          exact absurd ⟨error, hr'⟩ hr
        · rfl
      rw [heq]
      exact h.call he hc (.reset c) [] rfl hc (.inr ⟨by rintro ⟨⟩, by rintro ⟨⟩⟩) (List.append_nil _).symm rfl
        (by rintro _ ⟨⟩) (List.Subset.refl _) (by rintro _ _ _ _ _ ⟨⟩) (.inl hloop)
  | close =>
    exact h.call he hc (.close c) [] rfl hc (.inr ⟨by rintro ⟨⟩, by rintro ⟨⟩⟩)
      (List.append_nil _).symm rfl (by rintro _ ⟨⟩) (List.Subset.refl _) (by rintro _ _ _ _ _ ⟨⟩) (.inl hloop)
  | hello | foreign => exact h.quit he false

/-- A controller is admitted. -/
lemma admitted (h : Told config sv) (hpc : sv.pc = .hello) {mode : Mode} {now : ℕ}
    (hr : (sv.target.call (.admitController mode now)).2 = .admitted c) (inbox : List Message) :
    Told config { sv.on (.admitController mode now) with
      inbox, controller := some c, pc := .welcome } := by
  obtain ⟨-, hsent⟩ := h.hello hpc
  have hacts := State.acts_of_call (.admitController mode now)
    (h.reached.timed (.admitController mode now)).linked
  rw [hr] at hacts
  obtain ⟨hnext, hbox, a, ha, hid, hmode, hlast, hepoch⟩ := hacts.admits
  have htarget : Reached (sv.target.call (.admitController mode now)).1 := by
    obtain ⟨config, tr, hrun⟩ := h.reached
    exact ⟨config, _, hrun.snoc (.admitController mode now) trivial⟩
  refine ⟨htarget, hacts.config_of h.fixed, (by rintro ⟨⟩), fun d hd => ?_, fun d hd b hb hbid => ?_,
    fun d hd => ?_, fun mode v id epoch offer hm => ?_⟩
  · cases hd
    exact hnext ▸ UInt64.le_refl _
  · cases hd
    cases ha.symm.trans hb
    exact ⟨hmode, .inl hlast⟩
  · cases hd
    refine .inr ⟨?_, .inr ⟨rfl, (sv.target.call (.admitController mode now)).1.config.geometry, ?_⟩⟩
    · show issued sv.sent = []
      rw [hsent]
      rfl
    exact .admitted hnext hbox ha hepoch
  · have hm : Sent.welcome mode v id epoch offer ∈ sv.sent := hm
    rw [hsent] at hm
    cases hm

/-- Before the loop. -/
lemma helloStep (h : Told config sv) (he : sv.Epochs) (hpc : sv.pc = .hello) (e : ServerEnv) :
    Told config (sv.helloStep e) := by
  obtain ⟨hc, hsent⟩ := h.hello hpc
  have hquit : ∀ inbox, Told config (({ sv with inbox } : Server).quit false) := by
    intro inbox
    have hinbox : Told config { sv with inbox } :=
      h.waiting hc hc (.inl rfl) (fun m hm => .inl hm) fun _ => hsent
    exact hinbox.quit he false
  rw [Server.helloStep]
  by_cases hstop : (sv.stop || e.late) = true
  · rw [if_pos hstop]
    exact h.quit he true
  rw [if_neg hstop]
  cases sv.inbox with
  | nil => exact h
  | cons m inbox =>
    cases m with
    | hello v mode =>
      dsimp only
      by_cases hv : v = version
      swap
      · rw [if_neg hv]
        exact hquit inbox
      rw [if_pos hv]
      cases hr : (sv.target.call (.admitController mode e.now)).2 with
      | admitted c => exact h.admitted hpc hr inbox
      | error error =>
        refine h.waiting hc hc (.inr ⟨_, rfl⟩) (fun m hm => ?_) (by rintro ⟨⟩)
        exact (List.mem_append.mp hm).imp_right fun hm => ⟨error, List.mem_singleton.mp hm⟩
      | _ => exact h.waiting hc hc (.inr ⟨_, rfl⟩) (fun m hm => .inl hm) fun _ => hsent
    | _ => exact hquit inbox

/-- The end of a round. -/
lemma flush (h : Told config sv) (he : sv.Epochs) (hc : sv.controller = some c) (hloop : sv.looping)
    (e : ServerEnv) : Told config (sv.flush e) := by
  rw [Server.flush]
  split_ifs
  · exact h.quit he true
  · exact h.pause hc [] rfl hc (.inr ⟨by rintro ⟨⟩, by rintro ⟨⟩⟩) (List.append_nil _).symm rfl (by rintro _ ⟨⟩) rfl
      (.inl hloop)
  · refine h.pause hc [.heartbeat] rfl hc (.inr ⟨by rintro ⟨⟩, by rintro ⟨⟩⟩) rfl rfl (fun m hm => ?_) rfl
      (.inl hloop)
    rw [List.mem_singleton.mp hm]
    rintro mode v id epoch offer ⟨⟩
  · exact h.pause hc [] rfl hc (.inr ⟨by rintro ⟨⟩, by rintro ⟨⟩⟩) (List.append_nil _).symm rfl (by rintro _ ⟨⟩) rfl
      (.inl hloop)

/-- One step of the loop. -/
lemma loopStep (h : Told config sv) (he : sv.Epochs) (hc : sv.controller = some c) {e : ServerEnv}
    (hs : sv.loopStep e c = some sv') : Told config sv' := by
  have move : sv.looping → Told config { sv with pc := .poll } := fun hloop =>
    h.pause hc [] rfl hc (.inr ⟨by rintro ⟨⟩, by rintro ⟨⟩⟩) (List.append_nil _).symm rfl (by rintro _ ⟨⟩) rfl (.inl hloop)
  rw [Server.loopStep] at hs
  cases hpc : sv.pc with
  | hello =>
    rw [hpc] at hs
    cases hs
  | returned ok =>
    rw [hpc] at hs
    cases hs
  | welcome =>
    rw [hpc] at hs
    rw [← Option.some.inj hs]
    refine ⟨h.reached, h.fixed, (by rintro ⟨⟩), h.known, h.active, fun d hd => ?_,
      fun mode v id epoch offer hm => ?_⟩
    · cases hd.symm.trans hc
      rcases h.names c hc with ⟨hne, -⟩ | ⟨hnone, ⟨ok, hok⟩ | ⟨-, g, hg⟩⟩
      · exact absurd hpc hne
      · cases hpc.symm.trans hok
      · refine .inl ⟨(by rintro ⟨⟩), ?_⟩
        show sv.target.Announced c.id (issued (sv.sent ++ _))
        rw [issued_append, hnone]
        exact hg.regreet
    · rcases List.mem_append.mp hm with hm | hm
      · exact h.welcomed mode v id epoch offer hm
      · cases List.mem_singleton.mp hm
        exact ⟨⟨c, hc, rfl⟩, h.fixed⟩
  | head =>
    rw [hpc] at hs
    dsimp only at hs
    have hloop : sv.looping := ⟨by rw [hpc]; rintro ⟨⟩, by rw [hpc]; rintro ok ⟨⟩⟩
    by_cases hstop : sv.stop = true
    · rw [if_pos hstop] at hs
      rw [← Option.some.inj hs]
      exact h.quit he true
    · rw [if_neg hstop] at hs
      rw [← Option.some.inj hs]
      have hpc' : (if sv.closing = true then ServerPc.poll else .receive 0) ≠ .hello ∧
          (if sv.closing = true then ServerPc.poll else .receive 0) ≠ .welcome := by
        split_ifs
        · exact ⟨by rintro ⟨⟩, by rintro ⟨⟩⟩
        · exact ⟨by rintro ⟨⟩, by rintro ⟨⟩⟩
      exact h.call he hc (.tick e.now) [] rfl hc (.inr hpc') (List.append_nil _).symm rfl
        (by rintro _ ⟨⟩) (List.Subset.refl _) (by rintro _ _ _ _ _ ⟨⟩) (.inl hloop)
  | receive n =>
    rw [hpc] at hs
    dsimp only at hs
    have hloop : sv.looping := ⟨by rw [hpc]; rintro ⟨⟩, by rw [hpc]; rintro ok ⟨⟩⟩
    by_cases hn : n < 32
    swap
    · rw [if_neg hn] at hs
      rw [← Option.some.inj hs]
      exact move hloop
    rw [if_pos hn] at hs
    cases hinbox : sv.inbox with
    | nil =>
      rw [hinbox] at hs
      rw [← Option.some.inj hs, ← hinbox]
      exact move hloop
    | cons m inbox =>
      rw [hinbox] at hs
      rw [← Option.some.inj hs]
      have htaken : Told config { sv with inbox } :=
        h.pause hc [] rfl hc (.inl rfl) (List.append_nil _).symm rfl (by rintro _ ⟨⟩) rfl (.inl hloop)
      exact htaken.handle he hc hloop e n m
  | poll =>
    rw [hpc] at hs
    dsimp only at hs
    have hloop : sv.looping := ⟨by rw [hpc]; rintro ⟨⟩, by rw [hpc]; rintro ok ⟨⟩⟩
    have hyields : yields c.id sv.target (.poll c) = (sv.target.mailboxes c.id).head?.toList :=
      if_pos rfl
    cases hst : (sv.target.mailboxes c.id).head? with
    | none =>
      have hreply : (sv.target.call (.poll c)).2 = .status none := by
        rw [← hst]
        rfl
      rw [hreply] at hs
      rw [← Option.some.inj hs]
      refine h.call he hc (.poll c) [] rfl hc (.inr ⟨by rintro ⟨⟩, by rintro ⟨⟩⟩) (List.append_nil _).symm ?_
        (by rintro _ ⟨⟩) (List.Subset.refl _) (by rintro _ _ _ _ _ ⟨⟩) (.inl hloop)
      rw [hyields, hst]
      rfl
    | some status =>
      have hreply : (sv.target.call (.poll c)).2 = .status (some status) := by
        rw [← hst]
        rfl
      rw [hreply] at hs
      rw [← Option.some.inj hs]
      refine h.call he hc (.poll c) [.reply status] rfl hc (.inr ⟨by rintro ⟨⟩, by rintro ⟨⟩⟩) rfl ?_
        (fun m hm => ?_) (List.Subset.refl _) (by rintro _ _ _ _ _ ⟨⟩) (.inl hloop)
      · rw [hyields, hst]
        rfl
      · rw [List.mem_singleton.mp hm]
        rintro mode v id epoch offer ⟨⟩
  | flush =>
    rw [hpc] at hs
    rw [← Option.some.inj hs]
    exact h.flush he hc ⟨by rw [hpc]; rintro ⟨⟩, by rw [hpc]; rintro ok ⟨⟩⟩ e

/-- **Every step keeps what has been told.** -/
lemma step (h : Told config sv) (he : sv.Epochs) {l : ServerLabel} (hs : sv.step l = some sv') :
    Told config sv' := by
  cases l with
  | client m =>
    rw [← Option.some.inj hs]
    exact ⟨h.reached, h.fixed, h.hello, h.known, h.active, h.names, h.welcomed⟩
  | serve e =>
    rw [Server.step, Server.serveStep] at hs
    split_ifs at hs with hpc
    · rw [← Option.some.inj hs]
      exact h.helloStep he hpc e
    · cases hc : sv.controller with
      | none =>
        rw [hc] at hs
        cases hs
      | some c =>
        rw [hc] at hs
        exact h.loopStep he hc hs
  | target l =>
    rw [Server.step] at hs
    split_ifs at hs with hl
    rw [← Option.some.inj hs]
    exact h.foreign he hl
  | stop =>
    rw [← Option.some.inj hs]
    exact ⟨h.reached, h.fixed, h.hello, h.known, h.active, h.names, h.welcomed⟩
  | lost =>
    rw [Server.step] at hs
    split at hs
    · cases hs
    · cases hs
    · rw [← Option.some.inj hs]
      exact h.quit he false

end Told

end Server

end Jackstay.Input
