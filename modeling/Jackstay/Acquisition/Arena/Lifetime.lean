import Jackstay.Acquisition.Arena.Borrows

/-!
The lifetime of a consumer: `ConsumerGrant`, `ConsumerLifetime`, `Retirement::close` and
the acknowledgement that ends the use of the claim page.

`Lifetime`: an incarnation is unborn while its grant is; the lifetime is closed once, by
its last owner, and nobody brings it back. `QUIESCENT` is stored only after the grant was
dropped, after the lifetime was closed and the local retirement is empty, or after the
exit of the process was observed.
-/

namespace Jackstay.Acquisition

/-- What has to follow an operation in the list of its thread: accesses to the page come
before the drop of the lifetime or the acknowledgement of a dropped grant, and
`begin_drain` comes before the drop of the lifetime or `close`. -/
def ThreadOp.Precedes (rest : List ThreadOp) : ThreadOp → Prop
  | .page op => op = .quiesce ∨ .dropLifetime ∈ rest ∨ .page .quiesce ∈ rest
  | .enter s => s = .close ∨ .dropLifetime ∈ rest ∨ .enter .close ∈ rest
  | _ => True

/-- Every operation of the list has behind it what has to follow. -/
def Orderly : List ThreadOp → Prop
  | [] => True
  | op :: rest => op.Precedes rest ∧ Orderly rest

/-- The grants that have been dropped and not yet acknowledged. -/
def Incarnation.quiesces (inc : Incarnation) : ℕ := inc.pending (· == .page .quiesce)

/-- The places where `Retirement::close` can be: in a thread, under the mutex, done. -/
def Incarnation.closers (inc : Incarnation) : ℕ :=
  inc.pending (· == .enter .close) + inc.retirement.todo.countP (· == .setClosed) +
    inc.retirement.closed.toNat

/-- The `ConsumerGrant` is not consumed and not dropped. -/
def Incarnation.granted (inc : Incarnation) : Prop :=
  ∃ g p, inc.mappings 0 = some ⟨g, .grant p⟩

/-- No consumer has been made from the grant. -/
structure Incarnation.Unborn (inc : Incarnation) : Prop where
  consumer : inc.consumer = none
  uses : ∀ k, inc.uses k = none
  lifetime : inc.pending (· == .dropLifetime) = 0
  enters : ∀ s, inc.pending (· == .enter s) = 0
  todo : inc.retirement.todo = []
  closed : inc.retirement.closed = false
  worker : inc.retirement.worker = false

/-- The lifetime has been closed and no mapping is left to retire. -/
def Incarnation.retired (inc : Incarnation) : Prop :=
  inc.retirement.closed = true ∧ inc.empty = true

/-- **The invariant of a consumer's lifetime.** -/
structure Lifetime (inc : Incarnation) : Prop where
  orderly : ∀ t ∈ inc.threads, Orderly t.todo
  granted : inc.granted → inc.Unborn ∧ inc.quiesces = 0
  quiesces_le : inc.quiesces ≤ 1
  dropped : inc.quiesces = 1 → inc.Unborn ∧
    (inc.page.quiescent ≠ 0 → inc.observer.exitSeen = true)
  quiescent : inc.page.quiescent ≠ 0 → inc.observer.exitSeen = true ∨
    (inc.Unborn ∧ ¬ inc.granted) ∨ inc.retired
  closers_le : inc.closers ≤ 1
  ended : inc.closers = 1 → inc.lifetimeHeld = false
  mutex : .page .quiesce ∈ inc.retirement.todo → inc.retired
  observer : .page .quiesce ∈ inc.observer.todo → inc.observer.exitSeen = true
  host : .page .quiesce ∉ inc.host

lemma Orderly.append {next rest : List ThreadOp} (hrest : Orderly rest)
    (hnext : ∀ op ∈ next, ∀ later, rest <:+ later → op.Precedes later) :
    Orderly (next ++ rest) := by
  induction next with
  | nil => exact hrest
  | cons op next ih =>
      refine ⟨hnext op List.mem_cons_self _ (List.suffix_append next rest), ?_⟩
      exact ih fun x hx => hnext x (List.mem_cons_of_mem _ hx)

lemma Orderly.page {todo : List ThreadOp} (h : Orderly todo) {op : PageOp}
    (hop : .page op ∈ todo) : .dropLifetime ∈ todo ∨ .page .quiesce ∈ todo := by
  induction todo with
  | nil => cases hop
  | cons x rest ih =>
      rcases List.mem_cons.mp hop with rfl | hop
      · rcases h.1 with rfl | hl | hq
        · exact Or.inr List.mem_cons_self
        · exact Or.inl (List.mem_cons_of_mem _ hl)
        · exact Or.inr (List.mem_cons_of_mem _ hq)
      · exact (ih h.2 hop).imp (List.mem_cons_of_mem _) (List.mem_cons_of_mem _)

namespace Incarnation

variable {sh : Shared} {inc inc' : Incarnation}

/-- No `Arc<ConsumerLifetime>` is alive. -/
lemma lifetimeHeld_eq_false : inc.lifetimeHeld = false ↔ inc.consumer = none ∧
    (∀ k u, k < inc.frames → inc.uses k = some u → u.hasClaim = false) ∧
    inc.pending (· == .dropLifetime) = 0 := by
  rw [lifetimeHeld, Bool.or_eq_false_iff, Bool.or_eq_false_iff, pending_eq_zero]
  constructor
  · rintro ⟨⟨hc, hu⟩, ht⟩
    refine ⟨by simpa using hc, fun k u hk huse => ?_, fun t htm op hop => ?_⟩
    · rw [List.any_eq_false] at hu
      have := hu k (List.mem_range.mpr hk)
      rw [huse] at this
      simpa using this
    · rw [List.any_eq_false] at ht
      have := ht t htm
      by_contra hne
      simp only [Bool.not_eq_false, beq_iff_eq] at hne
      exact this (by simpa using hne ▸ hop)
  · rintro ⟨hc, hu, ht⟩
    refine ⟨⟨by simpa using hc, ?_⟩, ?_⟩
    · rw [List.any_eq_false]
      intro k hk
      cases huse : inc.uses k with
      | none => simp
      | some u => simpa using hu k u (List.mem_range.mp hk) huse
    · rw [List.any_eq_false]
      intro t htm hne
      have := ht t htm .dropLifetime (by simpa using hne)
      simp at this

/-- Without a consumer no claim is made: what has none keeps none. -/
lemma Move.unclaimed (hb : Borrowed inc) (hh : Handoffs sh.native inc) (hm : inc.Move sh inc')
    (hc : inc.consumer = none) :
    (∀ k, inc.uses k = none → inc'.uses k = none) ∧
    ((∀ k u, inc.uses k = some u → u.hasClaim = false) →
      ∀ k u, inc'.uses k = some u → u.hasClaim = false) := by
  have hcalls : inc.calls = [] := by
    by_contra h0
    have := hb.calls h0
    rw [hc] at this
    cases this
  have nocall : ∀ call : AcquireCall, call ∉ inc.calls := by simp [hcalls]
  constructor
  · intro k hk
    have hu := hm.uses hh k
    rw [hk] at hu
    generalize inc'.uses k = x at hu ⊢
    cases hu with
    | same => rfl
    | claimed call _ _ _ _ _ hmem => exact absurd hmem (nocall call)
  · intro hclaim k u' hu'
    have hu := hm.uses hh k
    rw [hu'] at hu
    generalize hx : inc.uses k = x at hu
    have off : ∀ u : Use, x = some u → u.pc ≠ .deferred → False := by
      intro u h0 hp
      have := hclaim k u (hx.trans h0)
      simp [Use.hasClaim, hp] at this
    cases hu with
    | same => exact hclaim k u' hx
    | claimed call _ _ _ _ _ hmem => exact absurd hmem (nocall call)
    | miss u _ hp => exact (off u rfl (by simp [hp])).elim
    | validate u _ hp => exact (off u rfl (by simp [hp])).elim
    | refuse u _ _ _ hp =>
        exact (off u rfl (by rcases hp with hp | hp | hp | hp <;> simp [hp])).elim
    | next u pc _ hp =>
        refine (off u rfl fun h0 => ?_).elim
        rw [h0] at hp
        cases hp
    | lease u _ hp => exact (off u rfl (by simp [hp])).elim
    | release u _ hp => exact (off u rfl (by simp [hp])).elim
    | returnPending u _ hp => exact (off u rfl (by simp [hp])).elim
    | handing u _ _ _ _ hp => exact (off u rfl (by simp [hp])).elim
    | deferred u _ hp => exact (off u rfl (by simp [hp])).elim

lemma Unborn.lifetimeHeld (h : inc.Unborn) : inc.lifetimeHeld = false := by
  refine lifetimeHeld_eq_false.mpr ⟨h.consumer, fun k u _ hu => ?_, h.lifetime⟩
  rw [h.uses k] at hu
  cases hu

lemma Unborn.closers (h : inc.Unborn) : inc.closers = 0 := by
  rw [Incarnation.closers, h.enters, h.todo, h.closed]
  rfl

/-- A tenant that is no grant does not bring one back. -/
lemma granted_of_setTenant (inc : Incarnation) {m : ℕ} {T : Tenant} (hT : ∀ p, T ≠ .grant p)
    (h : (inc.setTenant m T).granted) : inc.granted ∧ m ≠ 0 := by
  obtain ⟨g, p, hg⟩ := h
  simp only [setTenant] at hg
  by_cases hm : m = 0
  · subst hm
    simp only [Function.update_self, Option.map_eq_some_iff, Mapping.mk.injEq] at hg
    obtain ⟨x, -, -, hx⟩ := hg
    exact absurd hx (hT p)
  · rw [Function.update_of_ne (Ne.symm hm)] at hg
    exact ⟨⟨g, p, hg⟩, hm⟩

end Incarnation

/-- The operation is not about the end of the lifetime. -/
def ThreadOp.Aside (op : ThreadOp) : Prop :=
  op ≠ .page .quiesce ∧ op ≠ .dropLifetime ∧ ∀ s, op ≠ .enter s

namespace Lifetime

variable {sh : Shared} {inc inc' : Incarnation}

/-- While the lifetime is held, nothing of its end has begun. -/
lemma of_held (h : Lifetime inc) (hheld : inc.lifetimeHeld = true) :
    ¬ inc.Unborn ∧ ¬ inc.granted ∧ inc.quiesces = 0 ∧ inc.closers = 0 ∧
      (inc.page.quiescent ≠ 0 → inc.observer.exitSeen = true) ∧ ¬ inc.retired ∧
      .page .quiesce ∉ inc.retirement.todo := by
  have hborn : ¬ inc.Unborn := by
    intro h0
    rw [h0.lifetimeHeld] at hheld
    cases hheld
  have hclosers : inc.closers = 0 := by
    have := h.closers_le
    by_contra h0
    rw [h.ended (by omega)] at hheld
    cases hheld
  have hretired : ¬ inc.retired := by
    rintro ⟨hc, -⟩
    rw [Incarnation.closers, hc, Bool.toNat_true] at hclosers
    omega
  refine ⟨hborn, fun h0 => hborn (h.granted h0).1, ?_, hclosers, fun h0 => ?_, hretired,
    fun h0 => hretired (h.mutex h0)⟩
  · have := h.quiesces_le
    by_contra h0
    exact hborn (h.dropped (by omega)).1
  · rcases h.quiescent h0 with hs | ⟨hu, -⟩ | hr
    · exact hs
    · exact absurd hu hborn
    · exact absurd hr hretired

/-- The lifetime is held before the move, and nothing of its end begins in it. -/
lemma of_living (h : Lifetime inc) (hheld : inc.lifetimeHeld = true)
    (horderly : ∀ t ∈ inc'.threads, Orderly t.todo) (hgranted : inc'.granted → inc.granted)
    (hq : inc'.quiesces = inc.quiesces) (hc : inc'.closers = inc.closers)
    (hquiescent : inc'.page.quiescent = inc.page.quiescent)
    (hseen : inc.observer.exitSeen = true → inc'.observer.exitSeen = true)
    (hmutex : .page .quiesce ∈ inc'.retirement.todo → .page .quiesce ∈ inc.retirement.todo)
    (hobserver : .page .quiesce ∈ inc'.observer.todo → inc'.observer.exitSeen = true)
    (hhost : .page .quiesce ∉ inc'.host) : Lifetime inc' := by
  obtain ⟨-, hg, hq0, hc0, hqu, -, hmx⟩ := h.of_held hheld
  constructor
  case orderly => exact horderly
  case granted => exact fun h0 => absurd (hgranted h0) hg
  case quiesces_le => omega
  case dropped => exact fun h0 => by omega
  case quiescent => exact fun h0 => Or.inl (hseen (hqu (hquiescent ▸ h0)))
  case closers_le => omega
  case ended => exact fun h0 => by omega
  case mutex => exact fun h0 => absurd (hmutex h0) hmx
  case observer => exact hobserver
  case host => exact hhost

/-- Nothing of the end of the lifetime changes. -/
lemma of_counts (h : Lifetime inc) (horderly : ∀ t ∈ inc'.threads, Orderly t.todo)
    (hgranted : inc'.granted → inc.granted) (hunborn : inc.Unborn → inc'.Unborn)
    (hheld : inc.lifetimeHeld = false → inc'.lifetimeHeld = false)
    (hretired : inc.retired → inc'.retired)
    (hq : inc'.quiesces = inc.quiesces) (hc : inc'.closers = inc.closers)
    (hquiescent : inc'.page.quiescent = inc.page.quiescent ∨ inc'.observer.exitSeen = true)
    (hseen : inc.observer.exitSeen = true → inc'.observer.exitSeen = true)
    (hmutex : .page .quiesce ∈ inc'.retirement.todo → .page .quiesce ∈ inc.retirement.todo)
    (hobserver : .page .quiesce ∈ inc'.observer.todo → inc'.observer.exitSeen = true)
    (hhost : .page .quiesce ∉ inc'.host) : Lifetime inc' := by
  constructor
  case orderly => exact horderly
  case granted =>
      intro h0
      obtain ⟨h1, h2⟩ := h.granted (hgranted h0)
      exact ⟨hunborn h1, hq.trans h2⟩
  case quiesces_le => exact hq ▸ h.quiesces_le
  case dropped =>
      intro h0
      obtain ⟨h1, h2⟩ := h.dropped (hq ▸ h0)
      exact ⟨hunborn h1, fun h3 => hquiescent.elim (fun heq => hseen (h2 (heq ▸ h3))) id⟩
  case quiescent =>
      intro h0
      rcases hquiescent with hquiescent | hs
      swap
      · exact Or.inl hs
      rcases h.quiescent (hquiescent ▸ h0) with hs | ⟨hu, hg⟩ | hr
      · exact Or.inl (hseen hs)
      · exact Or.inr (Or.inl ⟨hunborn hu, fun h1 => hg (hgranted h1)⟩)
      · exact Or.inr (Or.inr (hretired hr))
  case closers_le => exact hc ▸ h.closers_le
  case ended => exact fun h0 => hheld (h.ended (hc ▸ h0))
  case mutex => exact fun h0 => hretired (h.mutex (hmutex h0))
  case observer => exact hobserver
  case host => exact hhost

/-- The lifetime is not taken up again without a consumer. -/
lemma held_of (hb : Borrowed inc) (hh : Handoffs sh.native inc) (hm : inc.Move sh inc')
    (hcons : inc.consumer = none → inc'.consumer = none)
    (hdrop : inc.consumer = none → inc.pending (· == .dropLifetime) = 0 →
      inc'.pending (· == .dropLifetime) = 0) :
    inc.lifetimeHeld = false → inc'.lifetimeHeld = false := by
  intro h0
  obtain ⟨hc, hu, hp⟩ := Incarnation.lifetimeHeld_eq_false.mp h0
  refine Incarnation.lifetimeHeld_eq_false.mpr ⟨hcons hc, fun k u _ => ?_, hdrop hc hp⟩
  refine (hm.unclaimed hb hh hc).2 (fun j w hw => hu j w (hh.lt_frames hw) hw) k u

/-- Nor does an unborn incarnation get anything of a consumer. -/
lemma unborn_of (hb : Borrowed inc) (hh : Handoffs sh.native inc) (hm : inc.Move sh inc')
    (hcons : inc.consumer = none → inc'.consumer = none)
    (hdrop : inc.consumer = none → inc.pending (· == .dropLifetime) = 0 →
      inc'.pending (· == .dropLifetime) = 0)
    (henter : ∀ s, inc.pending (· == .enter s) = 0 → inc'.pending (· == .enter s) = 0)
    (htodo : inc.retirement.todo = [] → inc'.retirement.todo = [])
    (hclosed : inc'.retirement.closed = inc.retirement.closed)
    (hworker : inc'.retirement.worker = inc.retirement.worker) :
    inc.Unborn → inc'.Unborn := by
  intro h0
  exact ⟨hcons h0.consumer, fun k => (hm.unclaimed hb hh h0.consumer).1 k (h0.uses k),
    hdrop h0.consumer h0.lifetime, fun s => henter s (h0.enters s), htodo h0.todo,
    hclosed.trans h0.closed, hworker.trans h0.worker⟩

/-- A step that touches neither the threads nor the state of the retirement. -/
lemma of_same (h : Lifetime inc) (hb : Borrowed inc) (hh : Handoffs sh.native inc)
    (hm : inc.Move sh inc') (hcons : inc.consumer = none → inc'.consumer = none)
    (ht : inc'.threads = inc.threads)
    (hr : inc'.retirement.todo = inc.retirement.todo ∧
      inc'.retirement.closed = inc.retirement.closed ∧
      inc'.retirement.worker = inc.retirement.worker ∧
      inc'.retirement.slots = inc.retirement.slots)
    (hf : inc'.frames = inc.frames) (hgranted : inc'.granted → inc.granted)
    (hquiescent : inc'.page.quiescent = inc.page.quiescent ∨ inc'.observer.exitSeen = true)
    (hseen : inc.observer.exitSeen = true → inc'.observer.exitSeen = true)
    (hobserver : .page .quiesce ∈ inc'.observer.todo → inc'.observer.exitSeen = true)
    (hhost : .page .quiesce ∉ inc'.host) : Lifetime inc' := by
  have hp : ∀ p, inc'.pending p = inc.pending p := fun p => Incarnation.pending_congr ht
  refine h.of_counts (ht ▸ h.orderly) hgranted ?_ ?_ ?_ (hp _) ?_ hquiescent hseen
    (by rw [hr.1]; exact id) hobserver hhost
  · exact unborn_of hb hh hm hcons (fun _ h0 => (hp _).trans h0) (fun s h0 => (hp _).trans h0)
      (by rw [hr.1]; exact id) hr.2.1 hr.2.2.1
  · exact held_of hb hh hm hcons fun _ h0 => (hp _).trans h0
  · rintro ⟨h1, h2⟩
    refine ⟨hr.2.1.trans h1, ?_⟩
    rw [Incarnation.empty, hf, hr.2.2.2]
    exact h2
  · rw [Incarnation.closers, Incarnation.closers, hp, hr.1, hr.2.1]

/-- A thread is started that is not about the end of the lifetime. -/
lemma of_spawn (h : Lifetime inc) (hb : Borrowed inc) (hh : Handoffs sh.native inc)
    (hm : inc.Move sh inc') (hcons : inc.consumer = none → inc'.consumer = none)
    {role : Role} {todo : List ThreadOp} (ht : inc'.threads = inc.threads ++ [⟨todo, role⟩])
    (hord : Orderly todo)
    (hops : ∀ op ∈ todo, op.Aside)
    (hr : inc'.retirement = inc.retirement) (hf : inc'.frames = inc.frames)
    (hgranted : inc'.granted → inc.granted)
    (hquiescent : inc'.page.quiescent = inc.page.quiescent)
    (hobserver : inc'.observer = inc.observer) (hhost : inc'.host = inc.host) :
    Lifetime inc' := by
  have hp : ∀ x, (∀ op ∈ todo, op ≠ x) → inc'.pending (· == x) = inc.pending (· == x) := by
    intro x hx
    have h0 : todo.countP (· == x) = 0 := by
      rw [List.countP_eq_zero]
      intro op hop h0
      exact hx op hop (by simpa using h0)
    have := Incarnation.pending_spawn (p := (· == x)) ht
    omega
  have hdrop := hp .dropLifetime fun op hop => (hops op hop).2.1
  have henter := fun s => hp (.enter s) fun op hop => (hops op hop).2.2 s
  refine h.of_counts ?_ hgranted ?_ ?_ ?_ (hp _ fun op hop => (hops op hop).1) ?_ (Or.inl hquiescent)
    (by rw [hobserver]; exact id) ?_ (by rw [hobserver]; exact h.observer)
    (by rw [hhost]; exact h.host)
  · intro t htm
    rw [ht, List.mem_append, List.mem_singleton] at htm
    rcases htm with htm | rfl
    · exact h.orderly t htm
    · exact hord
  · exact unborn_of hb hh hm hcons (fun _ h0 => hdrop.trans h0)
      (fun s h0 => (henter s).trans h0) (by rw [hr]; exact id) (by rw [hr]) (by rw [hr])
  · exact held_of hb hh hm hcons fun _ h0 => hdrop.trans h0
  · rintro ⟨h1, h2⟩
    refine ⟨by rw [hr]; exact h1, ?_⟩
    rw [Incarnation.empty, hf, hr]
    exact h2
  · rw [Incarnation.closers, Incarnation.closers, henter, hr]
  · rw [hr]
    exact id

/-- Signalling and waking never acknowledge by themselves. -/
lemma pageOp_next (inc : Incarnation) (e : Env) (op : PageOp) : (op.exec e inc).1.page.quiescent =
      (if op = .quiesce then 1 else inc.page.quiescent) ∧
    (∀ x ∈ (op.exec e inc).2, x ≠ .quiesce) ∧ (op = .quiesce → (op.exec e inc).2 = []) := by
  cases op with
  | epoch =>
      refine ⟨rfl, ?_, by simp⟩
      rw [PageOp.exec]
      split_ifs <;> simp
  | close =>
      refine ⟨rfl, ?_, by simp⟩
      rw [PageOp.exec]
      split_ifs <;> simp
  | interest event =>
      refine ⟨rfl, ?_, by simp⟩
      rw [PageOp.exec]
      split_ifs <;> simp
  | wake =>
      simp only [PageOp.exec, reduceCtorEq, if_false]
      split_ifs <;> simp
  | inactive => exact ⟨rfl, by simp [PageOp.exec], by simp⟩
  | quiesce => exact ⟨rfl, by simp [PageOp.exec], fun _ => rfl⟩

/-- What a thread puts in front of its work keeps the order. -/
lemma orderly_of_acts {op : ThreadOp} {rest next : List ThreadOp}
    (h : op.Acts sh inc inc' next) (hord : Orderly (op :: rest)) : Orderly (next ++ rest) := by
  obtain ⟨hpre, hrest⟩ := hord
  have quiet : (∀ x ∈ next, ∀ later, ThreadOp.Precedes later x) → Orderly (next ++ rest) :=
    fun hn => hrest.append fun x hx later _ => hn x hx later
  cases h with
  | page op e =>
      obtain ⟨-, hnq, hnil⟩ := pageOp_next inc e op
      refine hrest.append fun x hx later hsuf => ?_
      obtain ⟨y, hy, rfl⟩ := List.mem_map.mp hx
      rcases hpre with rfl | hl | hq
      · rw [hnil rfl] at hy
        cases hy
      · exact Or.inr (Or.inl (hsuf.subset hl))
      · exact Or.inr (Or.inr (hsuf.subset hq))
  | owner op => exact quiet (by simp [ThreadOp.Precedes])
  | endLifetime =>
      exact ⟨Or.inr (Or.inr (by simp)), trivial, Or.inl rfl, trivial, hrest⟩
  | refuse op m => exact quiet (by simp [offerDrop, ThreadOp.Precedes])
  | installed m =>
      refine quiet fun x hx later => ?_
      rw [List.mem_append, List.mem_map, List.mem_singleton] at hx
      rcases hx with ⟨old, -, rfl⟩ | rfl <;> trivial
  | installActive m => exact quiet (by simp [ThreadOp.Precedes])
  | installTerminal m => exact quiet (by simp [ThreadOp.Precedes])
  | installMap m => exact quiet (by simp [ThreadOp.Precedes])
  | bindRegistered t => exact quiet (by simp [ThreadOp.Precedes])
  | bindActive t => exact quiet (by simp [ThreadOp.Precedes])
  | bindTerminal t => exact quiet (by simp [ThreadOp.Precedes])
  | _ => exact hrest

/-- A thread runs an operation that is not about the end of the lifetime. -/
lemma of_aside (h : Lifetime inc) (hb : Borrowed inc) (hh : Handoffs sh.native inc)
    (hm : inc.Move sh inc') {t : ℕ} {op : ThreadOp} {rest next : List ThreadOp} {role : Role}
    (ht : inc.threads[t]? = some ⟨op :: rest, role⟩)
    (ht' : inc'.threads = inc.threads.set t ⟨next ++ rest, role⟩)
    (hord : Orderly (next ++ rest)) (hop : op.Aside) (hnext : ∀ x ∈ next, x.Aside)
    (hcons : inc.consumer = none → inc'.consumer = none)
    (hr : inc'.retirement.todo = inc.retirement.todo ∧
      inc'.retirement.closed = inc.retirement.closed ∧
      inc'.retirement.worker = inc.retirement.worker ∧
      inc'.retirement.slots = inc.retirement.slots)
    (hf : inc'.frames = inc.frames) (hgranted : inc'.granted → inc.granted)
    (hquiescent : inc'.page.quiescent = inc.page.quiescent)
    (hobserver : inc'.observer = inc.observer) (hhost : inc'.host = inc.host) :
    Lifetime inc' := by
  have hp : ∀ x, op ≠ x → (∀ y ∈ next, y ≠ x) →
      inc'.pending (· == x) = inc.pending (· == x) := by
    intro x hx hy
    have h0 : next.countP (· == x) = 0 := by
      rw [List.countP_eq_zero]
      intro y hmem h0
      exact hy y hmem (by simpa using h0)
    have h1 : (op == x) = false := by simpa using hx
    have := Incarnation.pending_step (p := (· == x)) ht ht'
    simp only [h1, Bool.false_eq_true, if_false] at this
    omega
  have hdrop := hp .dropLifetime hop.2.1 fun y hy => (hnext y hy).2.1
  have henter := fun s => hp (.enter s) (hop.2.2 s) fun y hy => (hnext y hy).2.2 s
  refine h.of_counts ?_ hgranted ?_ ?_ ?_ (hp _ hop.1 fun y hy => (hnext y hy).1) ?_
    (Or.inl hquiescent) (by rw [hobserver]; exact id) (by rw [hr.1]; exact id)
    (by rw [hobserver]; exact h.observer) (by rw [hhost]; exact h.host)
  · intro t' htm
    rw [ht'] at htm
    rcases List.mem_or_eq_of_mem_set htm with htm | rfl
    · exact h.orderly t' htm
    · exact hord
  · exact unborn_of hb hh hm hcons (fun _ h0 => hdrop.trans h0)
      (fun s h0 => (henter s).trans h0) (by rw [hr.1]; exact id) hr.2.1 hr.2.2.1
  · exact held_of hb hh hm hcons fun _ h0 => hdrop.trans h0
  · rintro ⟨h1, h2⟩
    refine ⟨hr.2.1.trans h1, ?_⟩
    rw [Incarnation.empty, hf, hr.2.2.2]
    exact h2
  · rw [Incarnation.closers, Incarnation.closers, henter, hr.1, hr.2.1]

/-- Dropping an owner's handle grants nothing. -/
lemma granted_of_ownerOp (inc : Incarnation) (op : OwnerOp) (h : (op.exec inc).1.granted) :
    inc.granted := by
  cases op with
  | drop m holder =>
      rw [OwnerOp.exec] at h
      split_ifs at h
      · exact h
      · exact (Incarnation.granted_of_setTenant inc (by simp) h).1
  | unmap m holder => exact (Incarnation.granted_of_setTenant inc (by simp) h).1
  | clear m holder =>
      obtain ⟨g, p, hg⟩ := h
      simp only [OwnerOp.exec] at hg
      by_cases hm : m = 0
      · subst hm
        rw [Function.update_self] at hg
        cases hg
      · rw [Function.update_of_ne (Ne.symm hm)] at hg
        exact ⟨g, p, hg⟩
  | clearOffered => exact h

/-- The acknowledgement of a dropped grant. -/
lemma of_quiesce (h : Lifetime inc) {t : ℕ} {rest : List ThreadOp} {role : Role}
    (ht : inc.threads[t]? = some ⟨.page .quiesce :: rest, role⟩) (hrest : Orderly rest)
    (hinc : inc' = { inc with
      page := { inc.page with quiescent := 1 }
      threads := inc.threads.set t ⟨rest, role⟩ }) : Lifetime inc' := by
  have hmem : (⟨.page .quiesce :: rest, role⟩ : Thread) ∈ inc.threads := List.mem_of_getElem? ht
  have hthreads : inc'.threads = inc.threads.set t ⟨rest, role⟩ := by rw [hinc]
  have hpos : 0 < inc.quiesces := Incarnation.pending_pos hmem List.mem_cons_self (by simp)
  have hq1 : inc.quiesces = 1 := by
    have := h.quiesces_le
    omega
  obtain ⟨hunborn, -⟩ := h.dropped hq1
  have hng : ¬ inc'.granted := by
    rw [hinc]
    intro h0
    have := (h.granted h0).2
    omega
  have hp : ∀ x, x ≠ ThreadOp.page .quiesce →
      inc'.pending (· == x) = inc.pending (· == x) := by
    intro x hx
    have hpop := Incarnation.pending_pop (p := (· == x)) ht hthreads
    rw [if_neg (by simpa using Ne.symm hx)] at hpop
    exact hpop
  have hq0 : inc'.quiesces = 0 := by
    have hpop := Incarnation.pending_pop (p := (· == .page .quiesce)) ht hthreads
    rw [if_pos (by simp)] at hpop
    rw [Incarnation.quiesces] at hq1 ⊢
    omega
  have hunborn' : inc'.Unborn := by
    refine ⟨?_, ?_, (hp _ (by simp)).trans hunborn.lifetime,
      fun s => (hp _ (by simp)).trans (hunborn.enters s), ?_, ?_, ?_⟩
    · rw [hinc]; exact hunborn.consumer
    · rw [hinc]; exact hunborn.uses
    · rw [hinc]; exact hunborn.todo
    · rw [hinc]; exact hunborn.closed
    · rw [hinc]; exact hunborn.worker
  constructor
  case orderly =>
      rw [hthreads]
      intro t' htm
      rcases List.mem_or_eq_of_mem_set htm with htm | rfl
      · exact h.orderly t' htm
      · exact hrest
  case granted => exact fun h0 => absurd h0 hng
  case quiesces_le => omega
  case dropped => exact fun h0 => by omega
  case quiescent => exact fun _ => Or.inr (Or.inl ⟨hunborn', hng⟩)
  case closers_le => rw [hunborn'.closers]; omega
  case ended => exact fun h0 => by rw [hunborn'.closers] at h0; cases h0
  case mutex => rw [hunborn'.todo]; exact fun h0 => by cases h0
  case observer => rw [hinc]; exact h.observer
  case host => rw [hinc]; exact h.host

/-- The last owner starts to close the lifetime. -/
lemma of_endLifetime (h : Lifetime inc) {t : ℕ} {rest : List ThreadOp} {role : Role}
    (ht : inc.threads[t]? = some ⟨.dropLifetime :: rest, role⟩)
    (hord : Orderly (closing ++ rest)) {mid : Incarnation}
    (hmid : mid = { inc with threads := inc.threads.set t ⟨rest, role⟩ })
    (hheld : mid.lifetimeHeld = false)
    (hinc : inc' = { inc with threads := inc.threads.set t ⟨closing ++ rest, role⟩ }) :
    Lifetime inc' := by
  have hmem : (⟨.dropLifetime :: rest, role⟩ : Thread) ∈ inc.threads := List.mem_of_getElem? ht
  have hthreads : inc'.threads = inc.threads.set t ⟨closing ++ rest, role⟩ := by rw [hinc]
  have hheld0 : inc.lifetimeHeld = true := by
    by_contra h0
    have := (Incarnation.lifetimeHeld_eq_false.mp (by simpa using h0)).2.2
    have hpos := Incarnation.pending_pos (p := (· == .dropLifetime)) hmem List.mem_cons_self
      (by simp)
    omega
  obtain ⟨-, hg, hq0, hc0, hqu, -, hmx⟩ := h.of_held hheld0
  have hq : inc'.quiesces = 0 := by
    have hstep := Incarnation.pending_step (p := (· == .page .quiesce)) ht hthreads
    have hcount : closing.countP (· == .page .quiesce) = 0 := by decide
    rw [if_neg (by simp), hcount] at hstep
    rw [Incarnation.quiesces] at hq0 ⊢
    omega
  have hc : inc'.closers = 1 := by
    have hstep := Incarnation.pending_step (p := (· == .enter .close)) ht hthreads
    have hcount : closing.countP (· == .enter .close) = 1 := by decide
    have hret : inc'.retirement = inc.retirement := by rw [hinc]
    rw [if_neg (by simp), hcount] at hstep
    rw [Incarnation.closers] at hc0 ⊢
    rw [hret]
    omega
  have hended : inc'.lifetimeHeld = false := by
    obtain ⟨h1, h2, h3⟩ := Incarnation.lifetimeHeld_eq_false.mp hheld
    have hmid' : mid.threads = inc.threads.set t ⟨rest, role⟩ := by rw [hmid]
    have hpop := Incarnation.pending_pop (p := (· == .dropLifetime)) ht hmid'
    have hstep := Incarnation.pending_step (p := (· == .dropLifetime)) ht hthreads
    have hcount : closing.countP (· == .dropLifetime) = 0 := by decide
    rw [hmid] at h1 h2
    refine Incarnation.lifetimeHeld_eq_false.mpr ⟨?_, ?_, by omega⟩
    · rw [hinc]; exact h1
    · rw [hinc]; exact h2
  constructor
  case orderly =>
      rw [hthreads]
      intro t' htm
      rcases List.mem_or_eq_of_mem_set htm with htm | rfl
      · exact h.orderly t' htm
      · exact hord
  case granted => rw [hinc]; exact fun h0 => absurd h0 hg
  case quiesces_le => omega
  case dropped => exact fun h0 => by omega
  case quiescent => rw [hinc]; exact fun h0 => Or.inl (hqu h0)
  case closers_le => omega
  case ended => exact fun _ => hended
  case mutex => rw [hinc]; exact fun h0 => absurd h0 hmx
  case observer => rw [hinc]; exact h.observer
  case host => rw [hinc]; exact h.host

/-- A thread takes the retirement mutex. -/
lemma of_enter (h : Lifetime inc) {t : ℕ} {s : Section} {rest : List ThreadOp} {role : Role}
    (ht : inc.threads[t]? = some ⟨.enter s :: rest, role⟩) (hrest : Orderly rest)
    (htodo : inc.retirement.todo = [])
    (hinc : inc' = { inc with
      retirement := { inc.retirement with todo := s.program }
      threads := inc.threads.set t ⟨rest, role⟩ }) : Lifetime inc' := by
  have hmem : (⟨.enter s :: rest, role⟩ : Thread) ∈ inc.threads := List.mem_of_getElem? ht
  have hthreads : inc'.threads = inc.threads.set t ⟨rest, role⟩ := by rw [hinc]
  have hborn : ¬ inc.Unborn := by
    intro h0
    have hpos := Incarnation.pending_pos (p := (· == .enter s)) hmem List.mem_cons_self (by simp)
    have := h0.enters s
    omega
  have hp := fun x : ThreadOp => Incarnation.pending_pop (p := (· == x)) ht hthreads
  refine h.of_counts ?_ (by rw [hinc]; exact id) (fun h0 => absurd h0 hborn) ?_
    (by rw [hinc]; exact id) ?_ ?_ (Or.inl (by rw [hinc])) (by rw [hinc]; exact id) ?_
    (by rw [hinc]; exact h.observer) (by rw [hinc]; exact h.host)
  · rw [hthreads]
    intro t' htm
    rcases List.mem_or_eq_of_mem_set htm with htm | rfl
    · exact h.orderly t' htm
    · exact hrest
  · intro h0
    obtain ⟨h1, h2, h3⟩ := Incarnation.lifetimeHeld_eq_false.mp h0
    have hdrop := hp .dropLifetime
    rw [if_neg (by simp)] at hdrop
    refine Incarnation.lifetimeHeld_eq_false.mpr ⟨?_, ?_, by omega⟩
    · rw [hinc]; exact h1
    · rw [hinc]; exact h2
  · have hq := hp (.page .quiesce)
    rw [if_neg (by simp)] at hq
    exact hq
  · have hclose := hp (.enter .close)
    have htodo' : inc'.retirement.todo = s.program := by rw [hinc]
    have hclosed : inc'.retirement.closed = inc.retirement.closed := by rw [hinc]
    rw [Incarnation.closers, Incarnation.closers, htodo, htodo', hclosed, List.countP_nil]
    cases s with
    | drain =>
        have hcount : (Section.program .drain).countP (· == .setClosed) = 0 := by decide
        rw [if_neg (by simp)] at hclose
        omega
    | close =>
        have hcount : (Section.program .close).countP (· == .setClosed) = 1 := by decide
        rw [if_pos (by simp)] at hclose
        omega
  · intro h0
    rw [hinc] at h0
    cases s <;> simp [Section.program] at h0

/-- **A thread's step.** -/
lemma threadStep (h : Lifetime inc) (hb : Borrowed inc) (hh : Handoffs sh.native inc)
    (hm : inc.Move sh inc') {e : Env} {t : ℕ} (hs : inc.threadStep sh e t = some inc') :
    Lifetime inc' := by
  obtain ⟨op, rest, role, mid, next, ht, -, hacts, hinc⟩ := Incarnation.threadStep_acts hs
  have hmem : (⟨op :: rest, role⟩ : Thread) ∈ inc.threads := List.mem_of_getElem? ht
  have hord := h.orderly _ hmem
  have hord' : Orderly (next ++ rest) := orderly_of_acts hacts hord
  have hthreads : inc'.threads = inc.threads.set t ⟨next ++ rest, role⟩ := by rw [hinc]
  have borrowed : op.Borrows → inc.consumer ≠ none := by
    intro hop h0
    have := hb.running _ hmem (by simp) (hb.roles _ hmem op List.mem_cons_self hop)
    rw [h0] at this
    cases this
  cases hacts with
  | page op e =>
      obtain ⟨hq, hnq, hnil⟩ := pageOp_next
        { inc with threads := inc.threads.set t ⟨rest, role⟩ } e op
      by_cases hop : op = .quiesce
      · subst hop
        exact h.of_quiesce ht hord.2 (by rw [hinc]; rfl)
      · obtain ⟨a, q, c, w, hshape⟩ := op.exec_shape e
          { inc with threads := inc.threads.set t ⟨rest, role⟩ }
        rw [if_neg hop] at hq
        refine h.of_aside hb hh hm ht hthreads hord' ⟨by simpa using hop, by simp, by simp⟩ ?_
          (by rw [hinc, hshape]; exact id) (by rw [hinc, hshape]; exact ⟨rfl, rfl, rfl, rfl⟩)
          (by rw [hinc, hshape]) (by rw [hinc, hshape]; exact id) (by rw [hinc]; exact hq)
          (by rw [hinc, hshape]) (by rw [hinc, hshape])
        intro x hx
        obtain ⟨y, hy, rfl⟩ := List.mem_map.mp hx
        exact ⟨by simpa using hnq y hy, by simp, by simp⟩
  | owner op =>
      obtain ⟨ms, m, g, hshape⟩ := op.exec_shape
        { inc with threads := inc.threads.set t ⟨rest, role⟩ }
      refine h.of_aside hb hh hm ht hthreads hord' ⟨by simp, by simp, by simp⟩ ?_
        (by rw [hinc, hshape]; exact id) (by rw [hinc, hshape]; exact ⟨rfl, rfl, rfl, rfl⟩)
        (by rw [hinc, hshape]) ?_ (by rw [hinc, hshape]) (by rw [hinc, hshape])
        (by rw [hinc, hshape])
      · intro x hx
        obtain ⟨y, hy, rfl⟩ := List.mem_map.mp hx
        exact ⟨by simp, by simp, by simp⟩
      · rw [hinc]
        exact fun h0 => granted_of_ownerOp
          { inc with threads := inc.threads.set t ⟨rest, role⟩ } op h0
  | keepLifetime hheld =>
      have hheld0 : inc.lifetimeHeld = true := by
        by_contra h0
        have := (Incarnation.lifetimeHeld_eq_false.mp (by simpa using h0)).2.2
        have hpos := Incarnation.pending_pos (p := (· == .dropLifetime)) hmem List.mem_cons_self
          (by simp)
        omega
      have hp := fun x : ThreadOp => Incarnation.pending_pop (p := (· == x)) ht hthreads
      have hq := hp (.page .quiesce)
      have hc := hp (.enter .close)
      rw [if_neg (by simp)] at hq hc
      refine h.of_living hheld0 ?_ (by rw [hinc]; exact id) hq ?_ (by rw [hinc])
        (by rw [hinc]; exact id) (by rw [hinc]; exact id) (by rw [hinc]; exact h.observer)
        (by rw [hinc]; exact h.host)
      · rw [hthreads]
        intro t' htm
        rcases List.mem_or_eq_of_mem_set htm with htm | rfl
        · exact h.orderly t' htm
        · exact hord'
      · have hret : inc'.retirement = inc.retirement := by rw [hinc]
        rw [Incarnation.closers, Incarnation.closers, hret]
        omega
  | endLifetime hheld => exact h.of_endLifetime ht hord' rfl hheld (by rw [hinc])
  | enter s htodo => exact h.of_enter ht hord.2 htodo (by rw [hinc]; rfl)
  | installed m hc =>
      have hcons : inc.consumer ≠ none := borrowed trivial
      refine h.of_aside hb hh hm ht hthreads hord' ⟨by simp, by simp, by simp⟩ ?_
        (fun h0 => absurd h0 hcons) (by rw [hinc]; exact ⟨rfl, rfl, rfl, rfl⟩) (by rw [hinc]; rfl)
        ?_ (by rw [hinc]; rfl) (by rw [hinc]; rfl) (by rw [hinc]; rfl)
      · intro x hx
        rw [List.mem_append, List.mem_map, List.mem_singleton] at hx
        rcases hx with ⟨old, -, rfl⟩ | rfl <;> exact ⟨by simp, by simp, by simp⟩
      · rw [hinc]
        exact fun h0 => (Incarnation.granted_of_setTenant
          { inc with threads := inc.threads.set t ⟨rest, role⟩ } (by simp) h0).1
  | refuse op m hop =>
      refine h.of_aside hb hh hm ht hthreads hord' ?_ ?_ (by rw [hinc]; exact id)
        (by rw [hinc]; exact ⟨rfl, rfl, rfl, rfl⟩) (by rw [hinc]; rfl) ?_ (by rw [hinc]; rfl)
        (by rw [hinc]; rfl) (by rw [hinc]; rfl)
      · cases op <;> simp_all [ThreadOp.Aside, ThreadOp.Installs]
      · intro x hx
        obtain ⟨y, hy, rfl⟩ := List.mem_map.mp hx
        exact ⟨by simp, by simp, by simp⟩
      · rw [hinc]
        exact fun h0 => (Incarnation.granted_of_setTenant
          { inc with threads := inc.threads.set t ⟨rest, role⟩ } (by simp) h0).1
  | bindRefused op t' hop =>
      refine h.of_aside hb hh hm ht hthreads hord' ?_ (by simp) (by rw [hinc]; exact id)
        (by rw [hinc]; exact ⟨rfl, rfl, rfl, rfl⟩) (by rw [hinc]) (by rw [hinc]; exact id)
        (by rw [hinc]) (by rw [hinc]) (by rw [hinc])
      rcases hop with rfl | rfl | rfl <;> exact ⟨by simp, by simp, by simp⟩
  | _ =>
      refine h.of_aside hb hh hm ht hthreads hord' ⟨by simp, by simp, by simp⟩
        (by simp [ThreadOp.Aside]) (by rw [hinc]; exact id)
        (by rw [hinc]; exact ⟨rfl, rfl, rfl, rfl⟩) (by rw [hinc]) (by rw [hinc]; exact id)
        (by rw [hinc]) (by rw [hinc]) (by rw [hinc])

/-- While the retirement mutex is held, there has been a consumer. -/
lemma born_of_section {op : SectionOp} {rest : List SectionOp}
    (htodo : inc.retirement.todo = op :: rest) : ¬ inc.Unborn := by
  intro h0
  rw [h0.todo] at htodo
  cases htodo

/-- A step under the retirement mutex. What it acknowledges is retired. -/
lemma of_section (h : Lifetime inc) (hb : Borrowed inc) (hh : Handoffs sh.native inc)
    (hm : inc.Move sh inc') {op : SectionOp} {rest next : List SectionOp}
    (htodo : inc.retirement.todo = op :: rest) (htodo' : inc'.retirement.todo = next ++ rest)
    (hop : op ≠ .setClosed)
    (hnext : ∀ x ∈ next, x ≠ .setClosed ∧ (x = .page .quiesce → inc'.retired))
    (hclosed : inc'.retirement.closed = inc.retirement.closed)
    (hempty : inc.empty = true → inc'.empty = true) (ht : inc'.threads = inc.threads)
    (hcons : inc'.consumer = inc.consumer) (hgranted : inc'.granted → inc.granted)
    (hquiescent : inc'.page.quiescent = inc.page.quiescent ∨ op = .page .quiesce)
    (hobserver : inc'.observer = inc.observer) (hhost : inc'.host = inc.host) :
    Lifetime inc' := by
  have hborn := born_of_section htodo
  have hp : ∀ p, inc'.pending p = inc.pending p := fun p => Incarnation.pending_congr ht
  have hretired : inc.retired → inc'.retired := fun h0 => ⟨hclosed.trans h0.1, hempty h0.2⟩
  have hcount : next.countP (· == .setClosed) = 0 := by
    rw [List.countP_eq_zero]
    intro x hx h0
    exact (hnext x hx).1 (by simpa using h0)
  have hclosers : inc'.closers = inc.closers := by
    rw [Incarnation.closers, Incarnation.closers, hp, hclosed, htodo, htodo', List.countP_append,
      hcount, List.countP_cons, if_neg (by simpa using hop)]
    omega
  have hheld : inc.lifetimeHeld = false → inc'.lifetimeHeld = false :=
    held_of hb hh hm (by rw [hcons]; exact id) fun _ h0 => (hp _).trans h0
  constructor
  case orderly => exact ht ▸ h.orderly
  case granted => exact fun h0 => absurd (h.granted (hgranted h0)).1 hborn
  case quiesces_le => exact (hp _).trans_le h.quiesces_le
  case dropped => exact fun h0 => absurd (h.dropped ((hp _).symm.trans h0)).1 hborn
  case quiescent =>
      intro h0
      rcases hquiescent with hq | rfl
      · rcases h.quiescent (hq ▸ h0) with hs | ⟨hu, -⟩ | hr
        · exact Or.inl (by rw [hobserver]; exact hs)
        · exact absurd hu hborn
        · exact Or.inr (Or.inr (hretired hr))
      · exact Or.inr (Or.inr (hretired (h.mutex (by rw [htodo]; exact List.mem_cons_self))))
  case closers_le => exact hclosers ▸ h.closers_le
  case ended => exact fun h0 => hheld (h.ended (hclosers ▸ h0))
  case mutex =>
      intro h0
      rw [htodo', List.mem_append] at h0
      rcases h0 with h0 | h0
      · exact (hnext _ h0).2 rfl
      · exact hretired (h.mutex (by rw [htodo]; exact List.mem_cons_of_mem _ h0))
  case observer => rw [hobserver]; exact h.observer
  case host => rw [hhost]; exact h.host

/-- `closed` is stored by the one that closes. -/
lemma of_setClosed (h : Lifetime inc) (hb : Borrowed inc) (hh : Handoffs sh.native inc)
    (hm : inc.Move sh inc') {rest : List SectionOp}
    (htodo : inc.retirement.todo = .setClosed :: rest)
    (hinc : inc' = { inc with retirement := { inc.retirement with todo := rest, closed := true } }) :
    Lifetime inc' := by
  have hborn := born_of_section htodo
  have hp : ∀ p, inc'.pending p = inc.pending p := by
    intro p
    exact Incarnation.pending_congr (by rw [hinc])
  have hcount : inc.retirement.todo.countP (· == .setClosed) =
      rest.countP (· == .setClosed) + 1 := by
    rw [htodo, List.countP_cons, if_pos (by simp)]
  have hopen : inc.retirement.closed = false := by
    have := h.closers_le
    rw [Incarnation.closers] at this
    by_contra h0
    have h0 : inc.retirement.closed = true := by simpa using h0
    rw [h0, Bool.toNat_true] at this
    omega
  have htodo' : inc'.retirement.todo = rest := by rw [hinc]
  have hclosed' : inc'.retirement.closed = true := by rw [hinc]
  have hclosers : inc'.closers = inc.closers := by
    rw [Incarnation.closers, Incarnation.closers, hp, htodo', hclosed', hopen, hcount,
      Bool.toNat_true, Bool.toNat_false]
    omega
  refine h.of_counts (by rw [hinc]; exact h.orderly) (by rw [hinc]; exact id)
    (fun h0 => absurd h0 hborn) ?_ ?_ (hp _) hclosers (Or.inl (by rw [hinc]))
    (by rw [hinc]; exact id) ?_
    (by rw [hinc]; exact h.observer) (by rw [hinc]; exact h.host)
  · exact held_of hb hh hm (by rw [hinc]; exact id) fun _ h0 => (hp _).trans h0
  · intro h0
    have := h0.1
    rw [hopen] at this
    cases this
  · rw [htodo', htodo]
    exact List.mem_cons_of_mem _

/-- A handed-off lease drops its lifetime in a thread of its own. -/
lemma of_storePending (h : Lifetime inc) (hh : Handoffs sh.native inc) {k : ℕ} {u : Use}
    {rest : List SectionOp} (htodo : inc.retirement.todo = .storePending k :: rest)
    (hu : inc.uses k = some u) (hpc : u.pc = .handing)
    (ht : inc'.threads = inc.threads ++ [⟨[.dropLifetime], .free⟩])
    (hr : inc'.retirement = { inc.retirement with todo := rest })
    (hmap : inc'.mappings = inc.mappings) (hq : inc'.page.quiescent = inc.page.quiescent)
    (hobserver : inc'.observer = inc.observer) (hhost : inc'.host = inc.host) :
    Lifetime inc' := by
  have hheld : inc.lifetimeHeld = true := by
    by_contra h0
    have h0 := (Incarnation.lifetimeHeld_eq_false.mp (by simpa using h0)).2.1 k u
      (hh.lt_frames hu) hu
    simp [Use.hasClaim, hpc] at h0
  have hp := fun x : ThreadOp => Incarnation.pending_spawn (p := (· == x)) ht
  have hq0 := hp (.page .quiesce)
  have hc0 := hp (.enter .close)
  rw [List.countP_cons, List.countP_nil, if_neg (by simp)] at hq0 hc0
  refine h.of_living hheld ?_ ?_ hq0 ?_ hq (by rw [hobserver]; exact id) ?_
    (by rw [hobserver]; exact h.observer) (by rw [hhost]; exact h.host)
  · intro t htm
    rw [ht, List.mem_append, List.mem_singleton] at htm
    rcases htm with htm | rfl
    · exact h.orderly t htm
    · exact ⟨trivial, trivial⟩
  · rw [Incarnation.granted, hmap]
    exact id
  · have htodo' : inc'.retirement.todo = rest := by rw [hr]
    have hclosed : inc'.retirement.closed = inc.retirement.closed := by rw [hr]
    rw [Incarnation.closers, Incarnation.closers, htodo', hclosed, htodo, List.countP_cons,
      if_neg (by simp)]
    omega
  · rw [hr, htodo]
    exact List.mem_cons_of_mem _

/-- **A step under the retirement mutex.** -/
lemma retireStep (h : Lifetime inc) (hb : Borrowed inc) (hh : Handoffs sh.native inc)
    (hm : inc.Move sh inc') {e : Env} (hs : inc.retireStep e = some inc') : Lifetime inc' := by
  obtain ⟨op, rest, htodo, hx, hinc⟩ := Incarnation.retireStep_shape hs
  dsimp only at hinc
  cases op with
  | storePending k =>
      obtain ⟨⟨u, hu, hpc, -⟩, -⟩ := hh.mutex (hh.not_seen hx) _ rest htodo
      exact h.of_storePending hh htodo hu hpc (by rw [hinc]; rfl) (by rw [hinc]; rfl)
        (by rw [hinc]; rfl) (by rw [hinc]; rfl) (by rw [hinc]; rfl) (by rw [hinc]; rfl)
  | setClosed => exact h.of_setClosed hb hh hm htodo (by rw [hinc]; rfl)
  | page op =>
      obtain ⟨hq, hnq, hnil⟩ := pageOp_next
        { inc with retirement := { inc.retirement with todo := rest } } e op
      obtain ⟨a, q, c, w, hshape⟩ := op.exec_shape e
        { inc with retirement := { inc.retirement with todo := rest } }
      refine h.of_section hb hh hm htodo (by rw [hinc]) (by simp) ?_
        (by rw [hinc]; simp only [SectionOp.exec, hshape]) ?_
        (by rw [hinc]; simp only [SectionOp.exec, hshape])
        (by rw [hinc]; simp only [SectionOp.exec, hshape]) ?_ ?_
        (by rw [hinc]; simp only [SectionOp.exec, hshape])
        (by rw [hinc]; simp only [SectionOp.exec, hshape])
      · intro x hx
        obtain ⟨y, hy, rfl⟩ := List.mem_map.mp hx
        exact ⟨by simp, fun h0 => absurd (by simpa using h0) (hnq y hy)⟩
      · rw [hinc]
        simp only [SectionOp.exec, hshape]
        exact id
      · rw [hinc]
        simp only [SectionOp.exec, hshape]
        exact id
      · by_cases hop : op = .quiesce
        · exact Or.inr (by rw [hop])
        · rw [if_neg hop] at hq
          exact Or.inl (by rw [hinc]; exact hq)
  | drop k op =>
      have hcases : ∃ next, SectionOp.exec e
          { inc with retirement := { inc.retirement with todo := rest } } (.drop k op) =
            ((op.exec { inc with retirement := { inc.retirement with todo := rest } }).1, next) ∧
          ∀ x ∈ next, x ≠ .setClosed ∧ x ≠ .page .quiesce := by
        rw [SectionOp.exec]
        split
        · rename_i heq
          rw [heq]
          exact ⟨_, rfl, by simp⟩
        · rename_i heq
          rw [heq]
          exact ⟨_, rfl, by simp⟩
      obtain ⟨next, heq, hnext⟩ := hcases
      obtain ⟨ms, m, g, hshape⟩ := op.exec_shape
        { inc with retirement := { inc.retirement with todo := rest } }
      rw [heq] at hinc
      refine h.of_section hb hh hm htodo (by rw [hinc]) (by simp)
        (fun x hx => ⟨(hnext x hx).1, fun h0 => absurd h0 (hnext x hx).2⟩)
        (by rw [hinc, hshape]) (by rw [hinc, hshape]; exact id) (by rw [hinc, hshape])
        (by rw [hinc, hshape]) ?_ (Or.inl (by rw [hinc, hshape])) (by rw [hinc, hshape])
        (by rw [hinc, hshape])
      rw [hinc]
      exact fun h0 => granted_of_ownerOp
        { inc with retirement := { inc.retirement with todo := rest } } op h0
  | retire k =>
      have same : ∀ next, SectionOp.exec e
          { inc with retirement := { inc.retirement with todo := rest } } (.retire k) =
            ({ inc with retirement := { inc.retirement with todo := rest } }, next) →
          (∀ x ∈ next, x ≠ .setClosed ∧ (x = .page .quiesce → inc'.retired)) →
          Lifetime inc' := by
        intro next heq hnext
        rw [heq] at hinc
        exact h.of_section hb hh hm htodo (by rw [hinc]) (by simp) hnext (by rw [hinc])
          (by rw [hinc]; exact id) (by rw [hinc]) (by rw [hinc]) (by rw [hinc]; exact id)
          (Or.inl (by rw [hinc])) (by rw [hinc]) (by rw [hinc])
      rcases SectionOp.retire_cases e
        { inc with retirement := { inc.retirement with todo := rest } } k with
        heq | heq | heq | ⟨p, hp, hk, heq⟩
      · refine same _ heq fun x hx => ?_
        split_ifs at hx with hc
        · rw [List.mem_singleton] at hx
          subst hx
          refine ⟨by simp, fun _ => ?_⟩
          rw [heq] at hinc
          rw [hinc]
          exact hc
        · cases hx
      · exact same _ heq (by simp)
      · rw [heq] at hinc
        exact h.of_section hb hh hm htodo (by rw [hinc]) (by simp) (by simp) (by rw [hinc])
          (by rw [hinc]; exact id) (by rw [hinc]) (by rw [hinc]) (by rw [hinc]; exact id)
          (Or.inl (by rw [hinc])) (by rw [hinc]) (by rw [hinc])
      · rw [heq] at hinc
        refine h.of_section hb hh hm htodo (by rw [hinc]) (by simp) (by simp) (by rw [hinc]) ?_
          (by rw [hinc]) (by rw [hinc]) (by rw [hinc]; exact id)
          (Or.inl (by rw [hinc])) (by rw [hinc]) (by rw [hinc])
        intro h0
        rw [hinc]
        simp only [Incarnation.empty, List.all_eq_true] at h0 ⊢
        intro j hj
        by_cases hjk : j = k
        · subst hjk
          simp
        · rw [Function.update_of_ne hjk]
          exact h0 j hj
  | poll =>
      refine h.of_section hb hh hm htodo (by rw [hinc]) (by simp) ?_ (by rw [hinc]; rfl)
        (by rw [hinc]; exact id) (by rw [hinc]; rfl) (by rw [hinc]; rfl) (by rw [hinc]; exact id)
        (Or.inl (by rw [hinc]; rfl)) (by rw [hinc]; rfl) (by rw [hinc]; rfl)
      intro x hx
      simp only [SectionOp.exec] at hx
      split_ifs at hx
      · cases hx
      · rw [List.mem_singleton] at hx
        subst hx
        exact ⟨by simp, by simp⟩
  | _ =>
      refine h.of_section hb hh hm htodo (by rw [hinc]) (by simp) (by simp [SectionOp.exec])
        (by rw [hinc]; rfl)
        (by rw [hinc]; exact id) (by rw [hinc]; rfl) (by rw [hinc]; rfl) (by rw [hinc]; exact id)
        (Or.inl (by rw [hinc]; rfl)) (by rw [hinc]; rfl) (by rw [hinc]; rfl)

/-- What a step under the observer mutex acknowledges is the exit it has seen. -/
lemma observeOp_quiescent (inc : Incarnation) (native : Bool) (e : Env) (op : ObserveOp) :
    ((op.exec native e inc).1.page.quiescent = inc.page.quiescent ∨ op = .page .quiesce) ∧
    (inc.observer.exitSeen = true → (op.exec native e inc).1.observer.exitSeen = true) ∧
    (.page .quiesce ∈ (op.exec native e inc).2 →
      (op.exec native e inc).1.observer.exitSeen = true) := by
  cases op with
  | page op =>
      obtain ⟨hq, hnq, -⟩ := pageOp_next inc e op
      obtain ⟨a, q, c, w, hshape⟩ := op.exec_shape e inc
      refine ⟨?_, ?_, ?_⟩
      · by_cases hop : op = .quiesce
        · exact Or.inr (by rw [hop])
        · rw [if_neg hop] at hq
          exact Or.inl hq
      · simp only [ObserveOp.exec, hshape]
        exact id
      · intro h0
        obtain ⟨y, hy, h1⟩ := List.mem_map.mp h0
        exact absurd (by simpa using h1) (hnq y hy)
  | process => simp only [ObserveOp.exec]; split_ifs <;> simp
  | zeroMapping m =>
      refine ⟨Or.inl rfl, id, ?_⟩
      simp only [ObserveOp.exec]
      split_ifs <;> simp
  | exitClaim k =>
      refine ⟨Or.inl rfl, id, ?_⟩
      simp only [ObserveOp.exec]
      split_ifs <;> simp
  | exitPending k => simp only [ObserveOp.exec]; split_ifs <;> simp
  | deadline => simp only [ObserveOp.exec]; split_ifs <;> simp
  | loadPending k => simp only [ObserveOp.exec]; split_ifs <;> simp
  | loadValue k t => simp only [ObserveOp.exec]; split_ifs <;> simp
  | completed k t v => simp only [ObserveOp.exec]; split_ifs <;> simp
  | recheck k t v =>
      refine ⟨Or.inl rfl, id, ?_⟩
      simp only [ObserveOp.exec]
      split_ifs <;> simp
  | creditClaim k b =>
      refine ⟨Or.inl rfl, id, ?_⟩
      cases b <;> simp [ObserveOp.exec]
  | register => simp only [ObserveOp.exec]; split_ifs <;> simp
  | _ => exact ⟨Or.inl rfl, id, by simp [ObserveOp.exec]⟩

/-- The producer's call on the page grants nothing and acknowledges nothing. -/
lemma hostOp_quiet (inc : Incarnation) (e : Env) {op : HostOp} (hop : op ≠ .page .quiesce) :
    ((op.exec e inc).1.granted → inc.granted) ∧
    (op.exec e inc).1.page.quiescent = inc.page.quiescent ∧
    .page .quiesce ∉ (op.exec e inc).2 := by
  cases op with
  | page op =>
      obtain ⟨hq, hnq, -⟩ := pageOp_next inc e op
      obtain ⟨a, q, c, w, hshape⟩ := op.exec_shape e inc
      rw [if_neg (by simpa using hop)] at hq
      refine ⟨?_, hq, fun h0 => ?_⟩
      · simp only [HostOp.exec, hshape]
        exact id
      · obtain ⟨y, hy, h1⟩ := List.mem_map.mp h0
        exact absurd (by simpa using h1) (hnq y hy)
  | owner op =>
      obtain ⟨ms, m, g, hshape⟩ := op.exec_shape inc
      refine ⟨fun h0 => granted_of_ownerOp inc op h0, ?_, by simp [HostOp.exec]⟩
      simp only [HostOp.exec, hshape]
  | offerActive generation =>
      cases generation with
      | none =>
          simp only [HostOp.exec]
          split_ifs <;> exact ⟨id, rfl, by simp⟩
      | some g =>
          simp only [HostOp.exec]
          split_ifs <;> exact ⟨id, rfl, by simp⟩
  | offerOffered g =>
      simp only [HostOp.exec]
      split_ifs <;> exact ⟨id, rfl, by simp⟩
  | offerSlot g m =>
      simp only [HostOp.exec]
      split_ifs
      · refine ⟨?_, rfl, by simp⟩
        rintro ⟨g', p, hg⟩
        dsimp only at hg
        by_cases hm : m = 0
        · subst hm
          simp at hg
        · rw [Function.update_of_ne (Ne.symm hm)] at hg
          exact ⟨g', p, hg⟩
      · exact ⟨id, rfl, by simp⟩
      · exact ⟨id, rfl, by simp⟩
  | offerStore g m => exact ⟨id, rfl, by simp [HostOp.exec]⟩
  | offerRecheck m =>
      simp only [HostOp.exec]
      split_ifs
      · exact ⟨fun h0 => (Incarnation.granted_of_setTenant inc (by simp) h0).1, rfl, by simp⟩
      · exact ⟨fun h0 => (Incarnation.granted_of_setTenant inc (by simp) h0).1, rfl, by simp⟩
      · exact ⟨fun h0 => (Incarnation.granted_of_setTenant inc (by simp) h0).1, rfl, by simp⟩
  | registerActive => exact ⟨id, rfl, by simp [HostOp.exec]⟩

/-- The grant is dropped; its acknowledgement is pending. -/
lemma of_dropGrant (h : Lifetime inc) (hg : inc.granted) {role : Role}
    (hinc : inc' = (inc.setTenant 0 .acknowledging).spawn role Incarnation.grantDrop) :
    Lifetime inc' := by
  obtain ⟨hunborn, hq0⟩ := h.granted hg
  have ht : inc'.threads = inc.threads ++ [⟨Incarnation.grantDrop, role⟩] := by rw [hinc]; rfl
  have hp := fun x : ThreadOp => Incarnation.pending_spawn (p := (· == x)) ht
  have hq : inc'.quiesces = 1 := by
    have hcount : Incarnation.grantDrop.countP (· == .page .quiesce) = 1 := by decide
    have := hp (.page .quiesce)
    rw [Incarnation.quiesces] at hq0 ⊢
    omega
  have hng : ¬ inc'.granted := by
    rw [hinc]
    intro h0
    have h0 : (inc.setTenant 0 .acknowledging).granted := h0
    exact (Incarnation.granted_of_setTenant inc (by simp) h0).2 rfl
  have hunborn' : inc'.Unborn := by
    refine ⟨?_, ?_, ?_, ?_, ?_, ?_, ?_⟩
    · rw [hinc]; exact hunborn.consumer
    · rw [hinc]; exact hunborn.uses
    · have hcount : Incarnation.grantDrop.countP (· == .dropLifetime) = 0 := by decide
      exact (hp .dropLifetime).trans (by rw [hcount, hunborn.lifetime])
    · intro s
      have hcount : Incarnation.grantDrop.countP (· == .enter s) = 0 := by cases s <;> decide
      exact (hp (.enter s)).trans (by rw [hcount, hunborn.enters])
    · rw [hinc]; exact hunborn.todo
    · rw [hinc]; exact hunborn.closed
    · rw [hinc]; exact hunborn.worker
  have hquiescent : inc.page.quiescent ≠ 0 → inc.observer.exitSeen = true := by
    intro h0
    rcases h.quiescent h0 with hs | ⟨-, hn⟩ | hr
    · exact hs
    · exact absurd hg hn
    · rw [Incarnation.retired, hunborn.closed] at hr
      cases hr.1
  constructor
  case orderly =>
      rw [ht]
      intro t htm
      rw [List.mem_append, List.mem_singleton] at htm
      rcases htm with htm | rfl
      · exact h.orderly t htm
      · exact ⟨trivial, trivial, Or.inr (Or.inr (by simp)), Or.inl rfl, trivial⟩
  case granted => exact fun h0 => absurd h0 hng
  case quiesces_le => omega
  case dropped => exact fun _ => ⟨hunborn', by rw [hinc]; exact hquiescent⟩
  case quiescent => exact fun h0 => Or.inl (by rw [hinc] at h0 ⊢; exact hquiescent h0)
  case closers_le => rw [hunborn'.closers]; omega
  case ended => exact fun h0 => by rw [hunborn'.closers] at h0; cases h0
  case mutex => rw [hunborn'.todo]; exact fun h0 => by cases h0
  case observer => rw [hinc]; exact h.observer
  case host => rw [hinc]; exact h.host

/-- The grant is consumed. -/
lemma of_fromGrant (h : Lifetime inc) (hg : inc.granted)
    (hinc : inc' = ({ inc.setTenant 0 .mapped with
      consumer := some ⟨some 0⟩
      retirement := { inc.retirement with worker := true } } : Incarnation).spawn .consumer
        [.owner .clearOffered]) : Lifetime inc' := by
  obtain ⟨hunborn, hq0⟩ := h.granted hg
  have ht : inc'.threads = inc.threads ++ [⟨[.owner .clearOffered], .consumer⟩] := by
    rw [hinc]; rfl
  have hp := fun x : ThreadOp => Incarnation.pending_spawn (p := (· == x)) ht
  have hq : inc'.quiesces = 0 := by
    have := hp (.page .quiesce)
    rw [List.countP_cons, List.countP_nil, if_neg (by simp)] at this
    rw [Incarnation.quiesces] at hq0 ⊢
    omega
  have hng : ¬ inc'.granted := by
    rw [hinc]
    intro h0
    have h0 : (inc.setTenant 0 .mapped).granted := h0
    exact (Incarnation.granted_of_setTenant inc (by simp) h0).2 rfl
  have hc : inc'.closers = 0 := by
    have := hp (.enter .close)
    have htodo : inc'.retirement.todo = [] := by rw [hinc]; exact hunborn.todo
    have hclosed : inc'.retirement.closed = false := by rw [hinc]; exact hunborn.closed
    rw [List.countP_cons, List.countP_nil, if_neg (by simp), hunborn.enters] at this
    rw [Incarnation.closers, htodo, hclosed, List.countP_nil, Bool.toNat_false]
    omega
  have hquiescent : inc.page.quiescent ≠ 0 → inc.observer.exitSeen = true := by
    intro h0
    rcases h.quiescent h0 with hs | ⟨-, hn⟩ | hr
    · exact hs
    · exact absurd hg hn
    · rw [Incarnation.retired, hunborn.closed] at hr
      cases hr.1
  constructor
  case orderly =>
      rw [ht]
      intro t htm
      rw [List.mem_append, List.mem_singleton] at htm
      rcases htm with htm | rfl
      · exact h.orderly t htm
      · exact ⟨trivial, trivial⟩
  case granted => exact fun h0 => absurd h0 hng
  case quiesces_le => omega
  case dropped => exact fun h0 => by omega
  case quiescent => exact fun h0 => Or.inl (by rw [hinc] at h0 ⊢; exact hquiescent h0)
  case closers_le => omega
  case ended => exact fun h0 => by omega
  case mutex =>
      rw [hinc]
      intro h0
      have h0 : .page .quiesce ∈ inc.retirement.todo := h0
      rw [hunborn.todo] at h0
      cases h0
  case observer => rw [hinc]; exact h.observer
  case host => rw [hinc]; exact h.host

/-- A use outside a deferred release holds the lifetime. -/
lemma held_of_use (hh : Handoffs sh.native inc) {k : ℕ} {u : Use} (hu : inc.uses k = some u)
    (hpc : u.pc ≠ .deferred) : inc.lifetimeHeld = true := by
  by_contra h0
  have h0 := (Incarnation.lifetimeHeld_eq_false.mp (by simpa using h0)).2.1 k u
    (hh.lt_frames hu) hu
  simp [Use.hasClaim, hpc] at h0

/-- So does the consumer. -/
lemma held_of_consumer {c : Consumer} (hc : inc.consumer = some c) : inc.lifetimeHeld = true := by
  rw [Incarnation.lifetimeHeld, hc]
  rfl

/-- A thread that drops the lifetime is started by one of its owners. -/
lemma of_release (h : Lifetime inc) (hheld : inc.lifetimeHeld = true) {role : Role}
    {todo : List ThreadOp} (ht : inc'.threads = inc.threads ++ [⟨todo, role⟩])
    (hord : Orderly todo) (hops : ∀ op ∈ todo, op ≠ .page .quiesce ∧ op ≠ .enter .close)
    (hr : inc'.retirement = inc.retirement) (hmap : inc'.mappings = inc.mappings)
    (hq : inc'.page.quiescent = inc.page.quiescent) (hobserver : inc'.observer = inc.observer)
    (hhost : inc'.host = inc.host) : Lifetime inc' := by
  have hp : ∀ x, (∀ op ∈ todo, op ≠ x) → inc'.pending (· == x) = inc.pending (· == x) := by
    intro x hx
    have h0 : todo.countP (· == x) = 0 := by
      rw [List.countP_eq_zero]
      intro op hop h0
      exact hx op hop (by simpa using h0)
    have := Incarnation.pending_spawn (p := (· == x)) ht
    omega
  refine h.of_living hheld ?_ (by rw [Incarnation.granted, hmap]; exact id)
    (hp _ fun op hop => (hops op hop).1) ?_ hq (by rw [hobserver]; exact id)
    (by rw [hr]; exact id) (by rw [hobserver]; exact h.observer) (by rw [hhost]; exact h.host)
  · intro t htm
    rw [ht, List.mem_append, List.mem_singleton] at htm
    rcases htm with htm | rfl
    · exact h.orderly t htm
    · exact hord
  · rw [Incarnation.closers, Incarnation.closers, hp _ fun op hop => (hops op hop).2, hr]

/-- The rest of a released claim drops the lifetime behind everything on the page. -/
lemma orderly_releaseTail (u : Use) : Orderly (Incarnation.releaseTail u) := by
  have tail : ∀ rest : List ThreadOp, Orderly rest →
      Orderly ((u.owner.toList.map fun m => ThreadOp.owner (.drop m .lease)) ++ rest) := by
    intro rest hrest
    refine hrest.append fun x hx later _ => ?_
    obtain ⟨m, -, rfl⟩ := List.mem_map.mp hx
    trivial
  have ret : Orderly (u.outcome.toList.map fun o => ThreadOp.ret ⟨u.client, u.request, o⟩) := by
    cases u.outcome with
    | none => trivial
    | some o => exact ⟨trivial, trivial⟩
  rw [Incarnation.releaseTail, List.append_assoc, List.append_assoc, List.singleton_append]
  refine ⟨Or.inr (Or.inl ?_), tail _ ⟨trivial, ret⟩⟩
  simp

/-- A claim is returned. -/
lemma of_returnClaim (h : Lifetime inc) (hh : Handoffs sh.native inc) {k : ℕ} {u : Use}
    (hu : inc.uses k = some u) (hpc : u.pc = .returnClaim) {role : Role}
    (hinc : inc' = ({ inc with
      page := inc.page.modifySlot k (fun w => { w with claim := 0 })
      uses := Function.update inc.uses k none } : Incarnation).spawn role
        (Incarnation.releaseTail u)) : Lifetime inc' := by
  refine h.of_release (held_of_use hh hu (by simp [hpc])) (by rw [hinc]; rfl)
    (orderly_releaseTail u) ?_ (by rw [hinc]; rfl) (by rw [hinc]; rfl) (by rw [hinc]; rfl)
    (by rw [hinc]; rfl) (by rw [hinc]; rfl)
  intro op hop
  simp only [Incarnation.releaseTail, List.mem_append, List.mem_singleton, List.mem_map] at hop
  rcases hop with ((rfl | ⟨m, -, rfl⟩) | rfl) | ⟨o, -, rfl⟩ <;> exact ⟨by simp, by simp⟩

/-- **Every move keeps the lifetime.** -/
theorem move (h : Lifetime inc) (hb : Borrowed inc) (hh : Handoffs sh.native inc)
    (hm : inc.Move sh inc') : Lifetime inc' := by
  have hm' := hm
  have aside : ∀ todo : List OwnerOp, Orderly (todo.map .owner) ∧
      ∀ op ∈ todo.map ThreadOp.owner, op.Aside := by
    intro todo
    refine ⟨?_, fun op hop => ?_⟩
    · rw [← List.append_nil (todo.map ThreadOp.owner)]
      refine Orderly.append trivial fun x hx later _ => ?_
      obtain ⟨y, -, rfl⟩ := List.mem_map.mp hx
      trivial
    · obtain ⟨y, -, rfl⟩ := List.mem_map.mp hop
      exact ⟨by simp, by simp, by simp⟩
  cases hm with
  | observe op ho hop =>
      refine h.of_same hb hh hm' id rfl ⟨rfl, rfl, rfl, rfl⟩ rfl id (Or.inl rfl) id ?_ h.host
      rcases hop with rfl | rfl <;> simp
  | collect =>
      exact h.of_same hb hh hm' id rfl ⟨rfl, rfl, rfl, rfl⟩ rfl id (Or.inl rfl) id h.observer h.host
  | forget =>
      exact h.of_same hb hh hm' id rfl ⟨rfl, rfl, rfl, rfl⟩ rfl id (Or.inl rfl) id h.observer h.host
  | retry =>
      exact h.of_same hb hh hm' id rfl ⟨rfl, rfl, rfl, rfl⟩ rfl id (Or.inl rfl) id h.observer h.host
  | call op hop hst =>
      refine h.of_same hb hh hm' id rfl ⟨rfl, rfl, rfl, rfl⟩ rfl id (Or.inl rfl) id h.observer ?_
      rw [List.mem_singleton]
      rintro rfl
      cases hst
  | act _ ha =>
      cases ha with
      | sendGrant g p p' hmap =>
          exact h.of_same hb hh hm' id rfl ⟨rfl, rfl, rfl, rfl⟩ rfl (fun _ => ⟨g, p, hmap⟩)
            (Or.inl rfl) id h.observer h.host
      | sendOffer m g p p' hmap =>
          exact h.of_same hb hh hm' id rfl ⟨rfl, rfl, rfl, rfl⟩ rfl
            (fun h0 => (Incarnation.granted_of_setTenant inc (by simp) h0).1)
            (Or.inl rfl) id h.observer h.host
      | dropGrant g p role hmap => exact h.of_dropGrant ⟨g, p, hmap⟩ rfl
      | dropOffer m g p role hmap =>
          refine h.of_spawn hb hh hm' id rfl (aside (offerDrop m)).1 (aside (offerDrop m)).2 rfl rfl
            (fun h0 => ?_) rfl rfl rfl
          have h0 : (inc.setTenant m .acknowledging).granted := h0
          exact (Incarnation.granted_of_setTenant inc (by simp) h0).1
      | fromGrant g hmap => exact h.of_fromGrant ⟨g, .client, hmap⟩ rfl
      | install m g hmap =>
          refine h.of_spawn hb hh hm' id rfl ⟨trivial, trivial⟩ (by simp [ThreadOp.Aside]) rfl rfl
            (fun h0 => ?_) rfl rfl rfl
          have h0 : (inc.setTenant m (.offer .call)).granted := h0
          exact (Incarnation.granted_of_setTenant inc (by simp) h0).1
      | relinquish c hx hc =>
          refine h.of_spawn hb hh hm' (fun h0 => by rw [hc] at h0; cases h0) rfl ?_ ?_ rfl rfl id
            rfl rfl rfl
          · cases hres : c.resources <;> simp [Consumer.dropResources, hres, Orderly,
              ThreadOp.Precedes]
          · cases hres : c.resources <;> simp [Consumer.dropResources, hres, ThreadOp.Aside]
      | dropConsumer c hx hc =>
          refine h.of_release (held_of_consumer hc) rfl ?_ ?_ rfl rfl rfl rfl rfl
          · cases hres : c.resources <;> simp [Consumer.dropResources, hres, Orderly,
              ThreadOp.Precedes]
          · cases hres : c.resources <;> simp [Consumer.dropResources, hres]
      | bind t hx hc =>
          exact h.of_spawn hb hh hm' id rfl ⟨trivial, trivial⟩ (by simp [ThreadOp.Aside]) rfl rfl id
            rfl rfl rfl
      | call t _ hx hs =>
          obtain ⟨call, hcall, ⟨pc, -, rfl⟩ | ⟨o, -, rfl⟩ | ⟨c, idx, k, m, x, -, -, -, rfl⟩⟩ :=
            Incarnation.callStep_shape hs
          all_goals
            exact h.of_same hb hh hm' id rfl ⟨rfl, rfl, rfl, rfl⟩ rfl id (Or.inl rfl) id h.observer
              h.host
      | use k u e _ hx hu hs =>
          cases Incarnation.useActs_of_step hs with
          | returnClaim hp => exact h.of_returnClaim hh hu hp rfl
          | _ =>
              exact h.of_same hb hh hm' id rfl ⟨rfl, rfl, rfl, rfl⟩ rfl id (Or.inl rfl) id h.observer
                h.host
      | defer k t v e u m hx hu hp hown hsrc htodo =>
          have hheld := held_of_use hh hu (by simp [hp])
          have same : ∀ i : Incarnation, i.threads = inc.threads → i.mappings = inc.mappings →
              i.page = inc.page → i.observer = inc.observer → i.host = inc.host →
              i.retirement.closed = inc.retirement.closed →
              i.retirement.todo.countP (· == .setClosed) = 0 →
              .page .quiesce ∉ i.retirement.todo → Lifetime i := by
            intro i ht hmap hpage hobs hhost hcl hcount hnq
            refine h.of_living hheld (ht ▸ h.orderly) (by rw [Incarnation.granted, hmap]; exact id)
              (Incarnation.pending_congr ht) ?_ (by rw [hpage]) (by rw [hobs]; exact id)
              (fun h0 => absurd h0 hnq) (by rw [hobs]; exact h.observer) (by rw [hhost]; exact h.host)
            rw [Incarnation.closers, Incarnation.closers, Incarnation.pending_congr ht, hcl, hcount,
              htodo, List.countP_nil]
          rw [Incarnation.handoff]
          split_ifs
          · exact same _ rfl rfl rfl rfl rfl rfl (by simp [htodo]) (by simp [htodo])
          · exact same _ rfl rfl rfl rfl rfl rfl (by simp [htodo]) (by simp [htodo])
          · exact same _ rfl rfl rfl rfl rfl rfl (by simp) (by simp)
      | workerPoll hx hw htodo =>
          have hborn : ¬ inc.Unborn := by
            intro h0
            rw [h0.worker] at hw
            cases hw
          refine h.of_counts h.orderly id (fun h0 => absurd h0 hborn)
            (held_of hb hh hm' id fun _ => id) id rfl ?_ (Or.inl rfl) id (by simp) h.observer h.host
          simp only [Incarnation.closers, htodo, List.countP_nil]
          rfl
      | waiter w e _ hx hw hs =>
          obtain ⟨waiter, interest, bytes, rfl⟩ := Incarnation.waiterStep_shape hs
          exact h.of_same hb hh hm' id rfl ⟨rfl, rfl, rfl, rfl⟩ rfl id (Or.inl rfl) id h.observer
            h.host
      | thread t e _ hs => exact h.threadStep hb hh hm' hs
      | retire e _ hs => exact h.retireStep hb hh hm' hs
      | host e _ hs =>
          obtain ⟨op, rest, hhost, rfl⟩ := Incarnation.hostStep_shape hs
          obtain ⟨a, q, c, ms, g, maps, w, fault, reply, hx⟩ := op.exec_shape e inc
          have hmem := h.host
          rw [hhost, List.mem_cons, not_or] at hmem
          obtain ⟨hg, hq, hn⟩ := hostOp_quiet inc e (Ne.symm hmem.1)
          refine h.of_same hb hh hm' (by rw [hx]; exact id) (by rw [hx])
            (by rw [hx]; exact ⟨rfl, rfl, rfl, rfl⟩) (by rw [hx]) hg (Or.inl hq)
            (by rw [hx]; exact id) (by rw [hx]; exact h.observer) ?_
          rw [List.mem_append, not_or]
          exact ⟨hn, hmem.2⟩
      | observe e _ hs =>
          obtain ⟨op, rest, htodo, rfl⟩ := Incarnation.observeStep_shape hs
          obtain ⟨hc, ht, hr, hmap, -⟩ := op.exec_client sh.native e inc
          obtain ⟨hq, hseen, hn⟩ := observeOp_quiescent inc sh.native e op
          have hstat := op.exec_static sh.native e inc
          refine h.of_same hb hh hm' (by rw [hc.consumer]; exact id) ht
            ⟨by rw [hr], by rw [hr], by rw [hr], by rw [hr]⟩ hstat.frames ?_ ?_ hseen ?_ ?_
          · rintro ⟨g, p, h0⟩
            exact ⟨g, p, by rw [← hmap]; exact h0⟩
          · rcases hq with hq | rfl
            · exact Or.inl hq
            · exact Or.inr (hseen (h.observer (by rw [htodo]; exact List.mem_cons_self)))
          · intro h0
            rcases List.mem_append.mp h0 with h0 | h0
            · exact hn h0
            · exact hseen (h.observer (by rw [htodo]; exact List.mem_cons_of_mem _ h0))
          · rw [hstat.host]
            exact h.host
      | observerPoll ho =>
          exact h.of_same hb hh hm' id rfl ⟨rfl, rfl, rfl, rfl⟩ rfl id (Or.inl rfl) id (by simp)
            h.host
      | observerFail ho =>
          exact h.of_same hb hh hm' id rfl ⟨rfl, rfl, rfl, rfl⟩ rfl id (Or.inl rfl) id (by simp)
            h.host
      | _ =>
          exact h.of_same hb hh hm' id rfl ⟨rfl, rfl, rfl, rfl⟩ rfl id (Or.inl rfl) id h.observer
            h.host

/-- A new incarnation is unborn. -/
lemma new (frames : ℕ) (remote : Bool) (generation : ℕ) :
    Lifetime (Incarnation.new frames remote generation) := by
  have hunborn : (Incarnation.new frames remote generation).Unborn :=
    ⟨rfl, fun _ => rfl, rfl, fun _ => rfl, rfl, rfl, rfl⟩
  constructor
  case orderly => exact fun t ht => by cases ht
  case granted => exact fun _ => ⟨hunborn, rfl⟩
  case quiesces_le => exact Nat.zero_le 1
  case dropped => exact fun h0 => by cases h0
  case quiescent => exact fun h0 => absurd rfl h0
  case closers_le => exact Nat.zero_le 1
  case ended => exact fun h0 => by cases h0
  case mutex => exact fun h0 => by cases h0
  case observer => exact fun h0 => by cases h0
  case host => exact fun h0 => by cases h0

end Lifetime

namespace Arena

variable {s : Arena}

/-- Borrows and lifetimes are kept in every reachable arena. -/
theorem Reachable.lifetime (h : Reachable s) :
    ∀ i inc, s.incarnations i = some inc → Borrowed inc ∧ Lifetime inc :=
  h.incarnation (P := fun _ inc => Borrowed inc ∧ Lifetime inc) (Q := Handoffs)
    (fun _ _ _ ha hi => ha.handoffs hi)
    (fun _ _ _ _ _ _ => ⟨.new _ _ _, .new _ _ _⟩)
    (fun _ _ _ hh ⟨hb, hl⟩ hm => ⟨hb.move hh hm, hl.move hb hh hm⟩)

end Arena

end Jackstay.Acquisition
