import Jackstay.Acquisition.Arena.Delivery
import Jackstay.Acquisition.Arena.Exclusivity

/-!
Leases: what an acquisition returns is what was published, for as long as it is held.

* `Use.Sound` and `Leases`: a use behind its validation is pinned, a lease has the
  descriptor that was published under its cursor, and so has every returned frame.
* `Pins.keeps`: along a run, a pin stays with its slot until its claim word is cleared,
  and the slot keeps its descriptor and its bytes.
* `lease_exclusive`: both together.
-/

namespace Jackstay.Acquisition

/-- What a use has behind it: an acquisition that gives up returns no frame, one that
goes on has been validated, and a lease has the published descriptor. -/
def Use.Sound (log : ℕ → Option Publication) (u : Use) : Prop :=
  match u.outcome with
  | some o => (u.pc = .returnPending ∨ u.pc = .returnClaim) ∧ ∀ d, o ≠ .frame d
  | none => (u.pc ≠ .validate → u.validated = true) ∧
      (u.inCall = false → ∃ p, log u.cursor = some p ∧ u.descriptor = p.descriptor)

/-- **The invariant of leases and returned frames.** -/
structure Leases (log : ℕ → Option Publication) (inc : Incarnation) : Prop where
  uses : ∀ k u, inc.uses k = some u → u.Sound log
  pending : ∀ r, inc.owes r → ∀ d, r.outcome ≠ .frame d
  returns : ∀ r ∈ inc.returns, ∀ d, r.outcome = .frame d →
    ∃ p, log d.cursor = some p ∧ p.descriptor = d

lemma Use.Sound.mono {log log' : ℕ → Option Publication} {u : Use} (h : u.Sound log)
    (hlog : ∀ c p, log c = some p → log' c = some p) : u.Sound log' := by
  rw [Use.Sound] at h ⊢
  cases ho : u.outcome with
  | some o =>
      rw [ho] at h
      exact h
  | none =>
      rw [ho] at h
      refine ⟨h.1, fun hcall => ?_⟩
      obtain ⟨p, hp, hd⟩ := h.2 hcall
      exact ⟨p, hlog _ p hp, hd⟩

/-- A lease is pinned and has the published descriptor. -/
lemma Use.Sound.lease {log : ℕ → Option Publication} {u : Use} (h : u.Sound log)
    (hcall : u.inCall = false) :
    u.validated = true ∧ ∃ p, log u.cursor = some p ∧ u.descriptor = p.descriptor := by
  have ho : u.outcome = none := by
    cases ho : u.outcome with
    | none => rfl
    | some o => simp [Use.inCall, ho] at hcall
  rw [Use.Sound, ho] at h
  refine ⟨h.1 fun hpc => ?_, h.2 hcall⟩
  simp [Use.inCall, ho, hpc] at hcall

/-- A use that is about to copy the descriptor has been validated. -/
lemma Use.Sound.validated {log : ℕ → Option Publication} {u : Use} (h : u.Sound log)
    (hpc : u.pc = .describe) : u.validated = true := by
  rw [Use.Sound, hpc] at h
  cases ho : u.outcome with
  | some o =>
      rw [ho] at h
      exact absurd h.1 (by simp)
  | none =>
      rw [ho] at h
      exact h.1 (by simp)

/-- A call that has published no claim returns no frame. -/
lemma AcquireCall.done_ne_frame {sh : Shared} {inc : Incarnation} {call : AcquireCall}
    {o : AcquireOutcome} (h : call.next sh inc = some (.done o)) (d : FrameDescriptor) :
    o ≠ .frame d := by
  rintro rfl
  have tried : ∀ frames cursor index k,
      tryClaim frames cursor index k ≠ .done (.frame d) := by
    intro frames cursor index k
    rw [tryClaim]
    split_ifs <;> simp
  obtain ⟨client, request, pc⟩ := call
  cases pc with
  | latest =>
      simp only [next, Option.some.injEq] at h
      split_ifs at h
      cases h
  | active l =>
      simp only [next, Option.some.injEq] at h
      split_ifs at h
      cases h
  | terminal l =>
      simp only [next, Option.some.injEq] at h
      split_ifs at h
      cases h
  | configuration l =>
      simp only [next, Option.some.injEq] at h
      cases request <;> simp only [checkLatest] at h <;> split_ifs at h <;> cases h
  | first l =>
      simp only [next, Option.some.injEq] at h
      cases request <;> simp only [checkFirst] at h <;> split_ifs at h <;> cases h
  | ring c =>
      simp only [next] at h
      split at h
      · cases h
      split_ifs at h
      · cases h
      · exact tried _ _ _ _ (Option.some.inj h)
  | claim c i j =>
      simp only [next, Option.some.injEq] at h
      split_ifs at h
      exact tried _ _ _ _ h

namespace Leases

variable {log log' : ℕ → Option Publication} {sh : Shared} {inc inc' : Incarnation}

lemma mono (h : Leases log inc) (hlog : ∀ c p, log c = some p → log' c = some p) :
    Leases log' inc := by
  refine ⟨fun k u hu => (h.uses k u hu).mono hlog, h.pending, fun r hr d hd => ?_⟩
  obtain ⟨p, hp, heq⟩ := h.returns r hr d hd
  exact ⟨p, hlog _ p hp, heq⟩

/-- A use that changes its place only. -/
lemma sound_of_pc {u u' : Use} (h : u.Sound log) (ho : u'.outcome = u.outcome)
    (hv : u.validated = true → u'.validated = true) (hc : u'.cursor = u.cursor)
    (hd : u'.descriptor = u.descriptor) (hpc : u.pc ≠ .validate)
    (hcall : u'.inCall = false → u.inCall = false)
    (hret : u.pc = .returnPending ∨ u.pc = .returnClaim →
      u'.pc = .returnPending ∨ u'.pc = .returnClaim) : u'.Sound log := by
  rw [Use.Sound] at h ⊢
  rw [ho]
  cases hu : u.outcome with
  | some o =>
      rw [hu] at h
      exact ⟨hret h.1, h.2⟩
  | none =>
      rw [hu] at h
      rw [hc, hd]
      exact ⟨fun _ => hv (h.1 hpc), fun h0 => h.2 (hcall h0)⟩

/-- The use of a claim slot stays sound, if the slot shows what it is leased for. -/
lemma uses_step {k : ℕ} {x x' : Option Use} (hu : inc.Uses sh k x x')
    (hx : ∀ u, x = some u → u.Sound log)
    (hshow : ∀ u, x = some u → u.validated = true → ∃ p, log u.cursor = some p ∧
      ((sh.maps u.generation).records u.index).descriptor = p.descriptor) :
    ∀ u', x' = some u' → u'.Sound log := by
  cases hu with
  | same => exact hx
  | claimed call cursor index m mapping =>
      rintro u' ⟨⟩
      exact ⟨fun h0 => absurd rfl h0, by rintro ⟨⟩⟩
  | miss u =>
      rintro u' ⟨⟩
      exact ⟨Or.inl rfl, by rintro d ⟨⟩⟩
  | refuse u outcome _ hr =>
      rintro u' ⟨⟩
      refine ⟨Or.inl rfl, ?_⟩
      rintro d rfl
      exact hr
  | validate u hx' hpc =>
      rintro u' ⟨⟩
      have hsound := hx u rfl
      rw [Use.Sound] at hsound ⊢
      cases ho : u.outcome with
      | some o =>
          rw [ho, hpc] at hsound
          exact absurd hsound.1 (by simp)
      | none => exact ⟨fun _ => rfl, fun h0 => by simp [Use.inCall] at h0⟩
  | next u pc hx' hp =>
      rintro u' ⟨⟩
      refine sound_of_pc (hx u rfl) rfl id rfl rfl (fun h0 => ?_) (fun h0 => ?_)
        (fun h0 => ?_)
      · rw [h0] at hp
        cases pc <;> exact hp
      · cases hpc : u.pc <;> rw [hpc] at hp <;> cases pc <;>
          first | exact hp.elim | simp [Use.inCall] at h0
      · rcases h0 with h0 | h0 <;> rw [h0] at hp <;> exact hp.elim
  | lease u hx' hpc hcur =>
      rintro u' ⟨⟩
      have hsound := hx u rfl
      rw [Use.Sound] at hsound ⊢
      cases ho : u.outcome with
      | some o =>
          rw [ho, hpc] at hsound
          exact absurd hsound.1 (by simp)
      | none =>
          rw [ho] at hsound
          have hv := hsound.1 (by rw [hpc]; simp)
          exact ⟨fun _ => hv, fun _ => hshow u rfl hv⟩
  | release u hx' hpc =>
      rintro u' ⟨⟩
      exact sound_of_pc (hx u rfl) rfl id rfl rfl (by rw [hpc]; simp)
        (by simp [Use.inCall, hpc]) (by simp [hpc])
  | returnPending u hx' hpc =>
      rintro u' ⟨⟩
      exact sound_of_pc (hx u rfl) rfl id rfl rfl (by rw [hpc]; simp)
        (by simp [Use.inCall, hpc]) (by simp [hpc])
  | handing u t v m hx' hpc =>
      rintro u' ⟨⟩
      exact sound_of_pc (hx u rfl) rfl id rfl rfl (by rw [hpc]; simp)
        (by simp [Use.inCall, hpc]) (by simp [hpc])
  | deferred u hx' hpc =>
      rintro u' ⟨⟩
      exact sound_of_pc (hx u rfl) rfl id rfl rfl (by rw [hpc]; simp)
        (by simp [Use.inCall, hpc]) (by simp [hpc])
  | returned u => rintro u' ⟨⟩
  | credited u => rintro u' ⟨⟩

/-- **Every move keeps the leases.** -/
theorem move (h : Leases log inc) (hh : Handoffs sh.native inc) (hm : inc.Move sh inc')
    (hshow : ∀ k u, inc.uses k = some u → u.validated = true → ∃ p, log u.cursor = some p ∧
      ((sh.maps u.generation).records u.index).descriptor = p.descriptor) :
    Leases log inc' := by
  have hreports := hm.reports
  constructor
  case uses =>
      intro k
      exact uses_step (hm.uses hh k) (h.uses k) (hshow k)
  case pending =>
      intro r hr d hd
      rcases hreports.pending r hr with hr | ⟨k, u, hu, ho, -⟩
      · exact h.pending r hr d hd
      · have hsound := h.uses k u hu
        rw [Use.Sound, ho] at hsound
        exact hsound.2 d hd
  case returns =>
      intro r hr d hd
      obtain ⟨new, heq, hnew⟩ := hreports.returns
      rw [heq, List.mem_append] at hr
      rcases hr with hr | hr
      · exact h.returns r hr d hd
      rcases hnew r hr with hr | ⟨call, -, hn, -⟩ | ⟨k, u, hu, hpc, hcur, hu', rfl⟩
      · exact absurd hd (h.pending r hr d)
      · exact absurd hd (AcquireCall.done_ne_frame hn d)
      · cases hd
        obtain ⟨p, hp, hd⟩ := hshow k u hu ((h.uses k u hu).validated hpc)
        rw [hcur]
        exact ⟨p, hp, hd.symm⟩

lemma new (frames : ℕ) (remote : Bool) (generation : ℕ) :
    Leases log (Incarnation.new frames remote generation) := by
  constructor
  case uses => exact fun k u hu => (nomatch hu)
  case pending => exact fun r hr => (nomatch hr.choose_spec.1)
  case returns => exact fun r hr => (nomatch hr)

end Leases

namespace Arena

open Transition

variable {s s' : Arena}

/-- The claim word of a claim slot is set. -/
def Claimed (s : Arena) (i k : ℕ) : Prop :=
  ∃ inc, s.incarnations i = some inc ∧ (inc.page.slot k).claim ≠ 0

/-- Leases are sound in every reachable arena. -/
theorem Reachable.leases (h : Reachable s) :
    ∀ i inc, s.incarnations i = some inc → Leases s.log inc := by
  refine h.induct (P := fun s => ∀ i inc, s.incarnations i = some inc → Leases s.log inc) ?_ ?_
  · intro page config externalBytes native s₀ h₀ i inc hi
    rw [create] at h₀
    obtain ⟨x, -, h₀⟩ := of_bind_ok h₀
    cases h₀
    cases hi
  · intro a b ha hp hs i inc' hi'
    have hlog : ∀ c p, a.log c = some p → b.log c = some p :=
      fun c p hc => hs.log_mono ha.ledger ha.published hc
    cases hi : a.incarnations i with
    | none =>
        obtain ⟨frames, remote, g, rfl⟩ := hs.new_of_none ha.ledger hi hi'
        exact .new frames remote g
    | some inc =>
        refine Leases.mono ?_ hlog
        rcases hs.move ha.ledger hi hi' with rfl | hm
        · exact hp i inc' hi
        · refine (hp i inc hi).move (ha.handoffs hi) hm fun k u hu hv => ?_
          obtain ⟨⟨p, hlogged, -, -, hd, -⟩, -⟩ := ha.exclusive.pinned i k u ⟨inc, hi, hu, hv⟩
          exact ⟨p, hlogged, hd⟩

/-- A validated use stays with its slot until it ends; a lease keeps its descriptor. -/
lemma uses_of_validated {sh : Shared} {inc : Incarnation} {k : ℕ} {u : Use} {x : Option Use}
    (h : inc.Uses sh k (some u) x) (hv : u.validated = true) :
    x = none ∨ ∃ u', x = some u' ∧ u'.validated = true ∧ u'.cursor = u.cursor ∧
      u'.generation = u.generation ∧ u'.index = u.index ∧
      (u.inCall = false → u'.inCall = false ∧ u'.descriptor = u.descriptor) := by
  cases h with
  | same => exact Or.inr ⟨u, rfl, hv, rfl, rfl, rfl, fun h0 => ⟨h0, rfl⟩⟩
  | returned => exact Or.inl rfl
  | credited => exact Or.inl rfl
  | miss _ _ hpc => exact Or.inr ⟨_, rfl, hv, rfl, rfl, rfl, by simp [Use.inCall, hpc]⟩
  | validate _ _ hpc => exact Or.inr ⟨_, rfl, rfl, rfl, rfl, rfl, by simp [Use.inCall, hpc]⟩
  | refuse _ o _ _ hpc =>
      refine Or.inr ⟨_, rfl, hv, rfl, rfl, rfl, ?_⟩
      rcases hpc with hpc | hpc | hpc | hpc <;> simp [Use.inCall, hpc]
  | next _ pc _ hp =>
      refine Or.inr ⟨_, rfl, hv, rfl, rfl, rfl, fun h0 => ?_⟩
      cases hpc : u.pc <;> rw [hpc] at hp <;> first | exact hp.elim | simp [Use.inCall, hpc] at h0
  | lease _ _ hpc => exact Or.inr ⟨_, rfl, hv, rfl, rfl, rfl, by simp [Use.inCall, hpc]⟩
  | release _ _ hpc => exact Or.inr ⟨_, rfl, hv, rfl, rfl, rfl, by simp [Use.inCall, hpc]⟩
  | returnPending _ _ hpc => exact Or.inr ⟨_, rfl, hv, rfl, rfl, rfl, by simp [Use.inCall, hpc]⟩
  | handing _ _ _ _ _ hpc => exact Or.inr ⟨_, rfl, hv, rfl, rfl, rfl, by simp [Use.inCall, hpc]⟩
  | deferred _ _ hpc => exact Or.inr ⟨_, rfl, hv, rfl, rfl, rfl, by simp [Use.inCall, hpc]⟩

/-- A pin stays until its claim word is cleared; a lease keeps its descriptor. -/
lemma Pins.acts (hr : Reachable s) (hs : s.Acts s') {i k : ℕ} {u : Use} (h : s.Pins i k u)
    (hclaim : s'.Claimed i k) :
    ∃ u', s'.Pins i k u' ∧ u'.cursor = u.cursor ∧ u'.generation = u.generation ∧
      u'.index = u.index ∧
      (u.inCall = false → u'.inCall = false ∧ u'.descriptor = u.descriptor) := by
  obtain ⟨inc, hi, hu, hv⟩ := h
  obtain ⟨inc', hi', hword⟩ := hclaim
  rcases hs.move hr.ledger hi hi' with rfl | hm
  · exact ⟨u, ⟨inc', hi', hu, hv⟩, rfl, rfl, rfl, fun h0 => ⟨h0, rfl⟩⟩
  have huse := hm.uses (hr.handoffs hi) k
  rw [hu] at huse
  rcases uses_of_validated huse hv with hnone | ⟨u', hu', hv', hrest⟩
  · exact absurd (((hr.handoffs hi).move hm).unused k hnone).1 hword
  · exact ⟨u', ⟨inc', hi', hu', hv'⟩, hrest⟩

/-- The steps after which the claim word is still set. -/
def Holding (i k : ℕ) (s : Arena) (l : Label) : Prop := ∀ s', s.step l = some s' → s'.Claimed i k

/-- What a pin keeps from one state to a later one. -/
structure Keeps (i k : ℕ) (u : Use) (s s' : Arena) : Prop where
  pins : ∃ u', s'.Pins i k u' ∧ u'.cursor = u.cursor ∧ u'.generation = u.generation ∧
    u'.index = u.index ∧ (u.inCall = false → u'.inCall = false ∧ u'.descriptor = u.descriptor)
  descriptor : (s'.record u.generation u.index).descriptor =
    (s.record u.generation u.index).descriptor
  payload : (s'.record u.generation u.index).payload = (s.record u.generation u.index).payload

/-- **From its validation until its claim word is cleared** a pin keeps its slot, and
the slot its descriptor and its bytes. -/
theorem Pins.keeps (hr : Reachable s) {i k : ℕ} {u : Use} (h : s.Pins i k u)
    (hrun : Reaches step (Holding i k) s s') : Keeps i k u s s' := by
  refine hrun.invariant_with (P := Keeps i k u s) (Q := Reachable) (fun a ha => hr.run ha)
    ⟨⟨u, h, rfl, rfl, rfl, fun h0 => ⟨h0, rfl⟩⟩, rfl, rfl⟩ ?_
  · intro a l b ha hkeeps hhold hstep
    obtain ⟨u', hpin, hc, hg, hidx, hd⟩ := hkeeps.pins
    have hs := acts_of_step hstep
    obtain ⟨hdesc, hbytes, -⟩ :=
      ha.exclusive.shows_of_changes hpin ((ha.exclusive.acts ha hs).1 _ _)
    rw [hg, hidx] at hdesc hbytes
    obtain ⟨u'', hpin', hc', hg', hidx', hd'⟩ := hpin.acts ha hs (hhold b hstep)
    refine ⟨⟨u'', hpin', hc'.trans hc, hg'.trans hg, hidx'.trans hidx, fun h0 => ?_⟩,
      hdesc.trans hkeeps.descriptor, hbytes.trans hkeeps.payload⟩
    obtain ⟨h1, h2⟩ := hd h0
    exact ⟨(hd' h1).1, (hd' h1).2.trans h2⟩

/-- What is logged under a cursor stays there. -/
lemma Reachable.log_final (hr : Reachable s) {c : ℕ} {p : Publication} (hp : s.log c = some p)
    {C : Arena → Label → Prop} (hrun : Reaches step C s s') : s'.log c = some p := by
  refine hrun.invariant_with (P := fun a => a.log c = some p) (Q := Reachable)
    (fun a ha => hr.run ha) hp ?_
  intro a l b ha hlog _ hstep
  exact (acts_of_step hstep).log_mono ha.ledger ha.published hlog

/-- **Leases are exclusive.** In every reachable arena:

* one publication is logged under each cursor, and it stays;
* a returned frame has the descriptor logged under its cursor, and the step that returns
  it leaves a lease of that descriptor;
* a lease has passed its validation; from there on its slot has the logged descriptor
  and bytes, no step writes them, and along every run this stays so until the claim word
  is cleared. -/
theorem lease_exclusive (hr : Reachable s) :
    (∀ c p, s.log c = some p → p.descriptor.cursor = c ∧
      ∀ s', Reaches step Always s s' → s'.log c = some p) ∧
    ∀ i inc, s.incarnations i = some inc →
      (∀ r ∈ inc.returns, ∀ d, r.outcome = .frame d →
        ∃ p, s.log d.cursor = some p ∧ p.descriptor = d) ∧
      (∀ l s' inc' client request d, s.step l = some s' → s'.incarnations i = some inc' →
        inc'.returns = inc.returns ++ [⟨client, request, .frame d⟩] →
        ∃ k u, inc'.uses k = some u ∧ u.client = client ∧ u.request = request ∧
          u.pc = .leased ∧ u.cursor = d.cursor ∧ u.descriptor = d) ∧
      ∀ k u, inc.uses k = some u →
        (u.inCall = false → u.validated = true ∧
          ∃ p, s.log u.cursor = some p ∧ u.descriptor = p.descriptor) ∧
        (u.validated = true → s.Shows u.generation u.index u.cursor ∧
          (∀ l s', s.step l = some s' →
            (s'.record u.generation u.index).descriptor =
              (s.record u.generation u.index).descriptor ∧
            (s'.record u.generation u.index).payload =
              (s.record u.generation u.index).payload) ∧
          ∀ s', Reaches step (Holding i k) s s' → Keeps i k u s s') := by
  have hexcl := hr.exclusive
  refine ⟨fun c p hp => ⟨(hr.published.logs c p hp).1, fun s' hrun => hr.log_final hp hrun⟩,
    fun i inc hi => ?_⟩
  have hleases := hr.leases i inc hi
  refine ⟨hleases.returns, ?_, fun k u hu => ⟨fun hcall => (hleases.uses k u hu).lease hcall,
    fun hv => ⟨(hexcl.pinned i k u ⟨inc, hi, hu, hv⟩).1, fun l s' hstep => ?_,
      fun s' hrun => Pins.keeps hr ⟨inc, hi, hu, hv⟩ hrun⟩⟩⟩
  · intro l s' inc' client request d hstep hi' hret
    rcases (acts_of_step hstep).move hr.ledger hi hi' with rfl | hm
    · simp at hret
    obtain ⟨new, heq, hnew⟩ := hm.reports.returns
    rw [hret, List.append_cancel_left_eq] at heq
    subst heq
    rcases hnew _ List.mem_cons_self with howes | ⟨call, -, hn, -⟩ |
      ⟨k, u, -, -, hcur, hu', hr'⟩
    · exact absurd rfl (hleases.pending _ howes d)
    · exact absurd rfl (AcquireCall.done_ne_frame hn d)
    · simp only [Return.mk.injEq, AcquireOutcome.frame.injEq] at hr'
      obtain ⟨rfl, rfl, rfl⟩ := hr'
      exact ⟨k, _, hu', rfl, rfl, rfl, hcur.symm, rfl⟩
  · obtain ⟨hdesc, hbytes, -⟩ := hexcl.shows_of_changes ⟨inc, hi, hu, hv⟩
      ((hexcl.acts hr (acts_of_step hstep)).1 _ _)
    exact ⟨hdesc, hbytes⟩

/-- A consumer leases the first frame; two more are published behind it. -/
def leasing : List Label :=
  [Label.call (.attach 1 false)] ++ pump 8 ++ [on (.fromGrant {}), on (.thread 0 {})] ++
  [Label.call (.publish (.cpu {} [7]))] ++ pump 30 ++
  [on (.begin 0 (.latest 0))] ++ List.replicate 7 (on (.call 0)) ++
  List.replicate 5 (on (.use 0 {})) ++
  (List.replicate 2 ([Label.call (.publish (.cpu {} [8]))] ++ pump 30)).flatten

theorem lease_exclusive_small : ∃ s inc u, Reachable s ∧ s.incarnations 1 = some inc ∧
    inc.uses 0 = some u ∧ u.inCall = false ∧ u.cursor = 1 ∧ s.shared.control.latest = 3 ∧
    (s.log 1).map Publication.bytes = some [7] ∧ s.Shows u.generation u.index u.cursor := by
  have hrun : ((script 4096 smallConfig 0 false leasing).bind fun s =>
      (s.incarnations 1).bind fun inc => (inc.uses 0).map fun u =>
        (u.inCall, u.cursor, s.shared.control.latest, (s.log 1).map Publication.bytes)) =
      some (false, 1, 3, some [7]) := by
    decide +kernel
  obtain ⟨s, hs, hrun⟩ := Option.bind_eq_some_iff.mp hrun
  obtain ⟨inc, hi, hrun⟩ := Option.bind_eq_some_iff.mp hrun
  obtain ⟨u, hu, hrun⟩ := Option.map_eq_some_iff.mp hrun
  simp only [Prod.mk.injEq] at hrun
  obtain ⟨hcall, hcur, hlatest, hbytes⟩ := hrun
  obtain ⟨-, -, huse⟩ := (lease_exclusive (.of_script hs)).2 1 inc hi
  obtain ⟨hlease, hpinned⟩ := huse 0 u hu
  exact ⟨s, inc, u, .of_script hs, hi, hu, hcall, hcur, hlatest, hbytes,
    (hpinned (hlease hcall).1).1⟩

end Arena

end Jackstay.Acquisition
