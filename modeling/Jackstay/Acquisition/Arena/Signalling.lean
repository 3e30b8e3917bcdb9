import Jackstay.Acquisition.Arena.Attending
import Jackstay.Acquisition.Arena.Notification
import Jackstay.Acquisition.Arena.Threads

/-!
Who has still to run a method of a claim page, and what a step does to that.

The steps of `ClaimMap::close`, `signal` and `return_credit` wait in the lists of the threads,
of the two sections and of the producer's call (`Incarnation.Queued`). A step of an
incarnation runs one of them (`Performs`), moves the waiter, arms a new one, or does something
that no waiter can notice (`Unnoticed`): `Incarnation.step_cases`. What the producer's own
code does is of the last kind (`Attended.unnoticed`).
-/

namespace Jackstay.Acquisition

/-! ### Lists of operations -/

section Lists

variable {α : Type} {page : PageOp → α} {l l' a b rest next : List α} {op : α}

/-- The methods in a list stay there, and none that notes a lost peer is new. -/
structure Stays (page : PageOp → α) (l l' : List α) : Prop where
  kept : ∀ q, page q ∈ l → page q ∈ l'
  inactive : page .inactive ∈ l' → page .inactive ∈ l

lemma Stays.refl (page : PageOp → α) (l : List α) : Stays page l l := ⟨fun _ => id, id⟩

lemma Stays.of_eq (h : l' = l) : Stays page l l' := h ▸ .refl page l

/-- An idle list is given work. -/
lemma Stays.of_nil (h : l = []) (hnew : page .inactive ∉ l') : Stays page l l' := by
  refine ⟨fun q hq => ?_, fun h0 => absurd h0 hnew⟩
  rw [h] at hq
  cases hq

/-- An operation that is no method has been run. -/
lemma Stays.run (a b : List α) (hop : ∀ q, op ≠ page q) (hnext : page .inactive ∉ next) :
    Stays page (a ++ op :: b) (a ++ (next ++ b)) := by
  constructor
  case kept =>
      intro q hq
      rcases List.mem_append.mp hq with hq | hq
      · exact List.mem_append_left _ hq
      · rcases List.mem_cons.mp hq with hq | hq
        · exact absurd hq.symm (hop q)
        · exact List.mem_append_right _ (List.mem_append_right _ hq)
  case inactive =>
      intro hq
      rcases List.mem_append.mp hq with hq | hq
      · exact List.mem_append_left _ hq
      · rcases List.mem_append.mp hq with hq | hq
        · exact absurd hq hnext
        · exact List.mem_append_right _ (List.mem_cons_of_mem _ hq)

/-- New work at the end. -/
lemma Stays.append (l : List α) (hnew : page .inactive ∉ next) : Stays page l (l ++ next) :=
  ⟨fun _ => List.mem_append_left _,
    fun h => (List.mem_append.mp h).elim id fun h => absurd h hnew⟩

/-- A method has been run, with what it leaves to run. -/
structure Runs (page : PageOp → α) (op : PageOp) (next : List PageOp) (l l' : List α) :
    Prop where
  kept : ∀ q, page q ∈ l → q = op ∨ page q ∈ l'
  leaves : ∀ q ∈ next, page q ∈ l'
  inactive : page .inactive ∈ l' → page .inactive ∈ l ∨ .inactive ∈ next

lemma Runs.mk' (hinj : Function.Injective page) (op : PageOp) (next : List PageOp)
    (a b : List α) : Runs page op next (a ++ page op :: b) (a ++ (next.map page ++ b)) := by
  constructor
  case kept =>
      intro q hq
      rcases List.mem_append.mp hq with hq | hq
      · exact .inr (List.mem_append_left _ hq)
      · rcases List.mem_cons.mp hq with hq | hq
        · exact .inl (hinj hq)
        · exact .inr (List.mem_append_right _ (List.mem_append_right _ hq))
  case leaves =>
      intro q hq
      exact List.mem_append_right _ (List.mem_append_left _ (List.mem_map_of_mem hq))
  case inactive =>
      intro hq
      rcases List.mem_append.mp hq with hq | hq
      · exact .inl (List.mem_append_left _ hq)
      · rcases List.mem_append.mp hq with hq | hq
        · obtain ⟨q, hmem, heq⟩ := List.mem_map.mp hq
          exact .inr (hinj heq ▸ hmem)
        · exact .inl (List.mem_append_right _ (List.mem_cons_of_mem _ hq))

end Lists

/-! ### What is left to run on a page -/

namespace Incarnation

variable {sh : Shared} {inc inc' : Incarnation} {op : PageOp} {e : Env}

/-- What the threads have still to do. -/
def work (inc : Incarnation) : List ThreadOp := (inc.threads.map Thread.todo).flatten

/-- **Somebody has still to run this step** of a method of the claim page. -/
def Queued (inc : Incarnation) (op : PageOp) : Prop :=
  .page op ∈ inc.work ∨ .page op ∈ inc.retirement.todo ∨ .page op ∈ inc.observer.todo ∨
    .page op ∈ inc.host

instance (inc : Incarnation) (op : PageOp) : Decidable (inc.Queued op) :=
  inferInstanceAs (Decidable (_ ∨ _))

/-- The step of a method of the claim page that a label runs, and what it is answered. -/
def runs (inc : Incarnation) : IncLabel → Option (PageOp × Env)
  | .thread t e =>
      match inc.threads[t]? with
      | some ⟨.page op :: _, _⟩ => some (op, e)
      | _ => none
  | .retire e =>
      match inc.retirement.todo with
      | .page op :: _ => some (op, e)
      | _ => none
  | .observe e =>
      match inc.observer.todo with
      | .page op :: _ => some (op, e)
      | _ => none
  | .host e =>
      match inc.host with
      | .page op :: _ => some (op, e)
      | _ => none
  | _ => none

lemma work_congr (h : inc'.threads = inc.threads) : inc'.work = inc.work := by
  rw [work, work, h]

lemma work_spawn {role : Role} {todo : List ThreadOp}
    (h : inc'.threads = inc.threads ++ [⟨todo, role⟩]) : inc'.work = inc.work ++ todo := by
  rw [work, h, List.map_append, List.flatten_append, work]
  simp

/-- A thread runs its next operation. -/
lemma work_step (inc' : Incarnation) {t : ℕ} {op : ThreadOp} {rest next : List ThreadOp}
    {role : Role} (ht : inc.threads[t]? = some ⟨op :: rest, role⟩)
    (h : inc'.threads = inc.threads.set t ⟨next ++ rest, role⟩) :
    ∃ a b, inc.work = a ++ op :: (rest ++ b) ∧ inc'.work = a ++ (next ++ (rest ++ b)) := by
  obtain ⟨hlt, hget⟩ := List.getElem?_eq_some_iff.mp ht
  obtain ⟨l₁, l₂, hall, -, hset⟩ : ∃ l₁ l₂, inc.threads = l₁ ++ inc.threads[t] :: l₂ ∧
      l₁.length = t ∧ inc.threads.set t ⟨next ++ rest, role⟩ = l₁ ++ ⟨next ++ rest, role⟩ :: l₂ :=
    List.exists_of_set hlt
  rw [hget] at hall
  refine ⟨(l₁.map Thread.todo).flatten, (l₂.map Thread.todo).flatten, ?_, ?_⟩
  · rw [work, hall]
    simp
  · rw [work, h, hset]
    simp

/-- **A step that no waiter can notice.** -/
structure Unnoticed (inc inc' : Incarnation) : Prop where
  active : inc'.page.active = inc.page.active
  capacityEpoch : inc'.page.capacityEpoch = inc.page.capacityEpoch
  waitInterest : inc'.page.waitInterest = inc.page.waitInterest
  wakeBytes : inc'.wakeBytes = inc.wakeBytes
  waiter : inc'.waiter = inc.waiter
  exited : inc'.exited = false → inc.exited = false
  hostFault : inc'.hostFault = true → inc.hostFault = true
  work : Stays .page inc.work inc'.work
  retirement : Stays .page inc.retirement.todo inc'.retirement.todo
  observer : Stays .page inc.observer.todo inc'.observer.todo
  host : Stays .page inc.host inc'.host

namespace Unnoticed

lemma refl (inc : Incarnation) : inc.Unnoticed inc :=
  ⟨rfl, rfl, rfl, rfl, rfl, id, id, .refl _ _, .refl _ _, .refl _ _, .refl _ _⟩

lemma queued (h : inc.Unnoticed inc') {q : PageOp} (hq : inc.Queued q) : inc'.Queued q := by
  rcases hq with hq | hq | hq | hq
  · exact .inl (h.work.kept q hq)
  · exact .inr (.inl (h.retirement.kept q hq))
  · exact .inr (.inr (.inl (h.observer.kept q hq)))
  · exact .inr (.inr (.inr (h.host.kept q hq)))

lemma inactive (h : inc.Unnoticed inc') (hq : inc'.Queued .inactive) : inc.Queued .inactive := by
  rcases hq with hq | hq | hq | hq
  · exact .inl (h.work.inactive hq)
  · exact .inr (.inl (h.retirement.inactive hq))
  · exact .inr (.inr (.inl (h.observer.inactive hq)))
  · exact .inr (.inr (.inr (h.host.inactive hq)))

end Unnoticed

/-- **A step of a method of the claim page**: what it stores and sends, and what it leaves to
run. -/
structure Performs (op : PageOp) (e : Env) (inc inc' : Incarnation) : Prop where
  page : inc'.page = (op.exec e inc).1.page
  wakeBytes : inc'.wakeBytes = (op.exec e inc).1.wakeBytes
  waiter : inc'.waiter = inc.waiter
  exited : inc'.exited = inc.exited
  hostFault : inc'.hostFault = true →
    inc.hostFault = true ∨ op = .wake ∧ e.broken = false ∧ e.fail = true
  kept : ∀ q, inc.Queued q → q = op ∨ inc'.Queued q
  leaves : ∀ q ∈ (op.exec e inc).2, inc'.Queued q
  inactive : inc'.Queued .inactive → inc.Queued .inactive ∨ .inactive ∈ (op.exec e inc).2
  close : .page .close ∈ inc.host → op = .close ∨ .page .close ∈ inc'.host

end Incarnation

/-- What a method reads is on the page and in the channel. -/
lemma PageOp.exec_congr (e : Env) (inc jnc : Incarnation) (hpage : jnc.page = inc.page)
    (hbytes : jnc.wakeBytes = inc.wakeBytes) (op : PageOp) :
    (op.exec e jnc).1.page = (op.exec e inc).1.page ∧
      (op.exec e jnc).1.wakeBytes = (op.exec e inc).1.wakeBytes ∧
      (op.exec e jnc).2 = (op.exec e inc).2 := by
  cases op with
  | wake =>
      rw [PageOp.exec, PageOp.exec, hbytes]
      split_ifs
      · exact ⟨hpage, hbytes, rfl⟩
      · exact ⟨hpage, hbytes, rfl⟩
      · exact ⟨hpage, hbytes, rfl⟩
      · exact ⟨hpage, rfl, rfl⟩
  | _ => simp only [PageOp.exec, hpage, hbytes, and_self]

namespace Incarnation

variable {sh : Shared} {inc inc' : Incarnation} {op : PageOp} {e : Env}

/-- A thread has run a step of a method. -/
lemma performs_of_work (h : inc' = { inc with
      page := (op.exec e inc).1.page
      wakeBytes := (op.exec e inc).1.wakeBytes
      threads := inc'.threads })
    (hrun : Runs ThreadOp.page op (op.exec e inc).2 inc.work inc'.work) :
    Performs op e inc inc' := by
  have hretirement : inc'.retirement = inc.retirement := by rw [h]
  have hobserver : inc'.observer = inc.observer := by rw [h]
  have hhost : inc'.host = inc.host := by rw [h]
  have hfault : inc'.hostFault = inc.hostFault := by rw [h]
  refine ⟨by rw [h], by rw [h], by rw [h], by rw [h], fun h0 => .inl (hfault ▸ h0),
    fun q hq => ?_, fun q hq => .inl (hrun.leaves q hq), fun hq => ?_, fun hc => ?_⟩
  · rw [Queued, hretirement, hobserver, hhost]
    rcases hq with hq | hq
    · exact (hrun.kept q hq).imp_right .inl
    · exact .inr (.inr hq)
  · rw [Queued, hretirement, hobserver, hhost] at hq
    rcases hq with hq | hq
    · exact (hrun.inactive hq).imp_left .inl
    · exact .inl (.inr hq)
  · rw [hhost]
    exact .inr hc

/-- The section under the retirement mutex has run a step of a method. -/
lemma performs_of_retirement (h : inc' = { inc with
      page := (op.exec e inc).1.page
      wakeBytes := (op.exec e inc).1.wakeBytes
      retirement := inc'.retirement })
    (hrun : Runs SectionOp.page op (op.exec e inc).2 inc.retirement.todo
      inc'.retirement.todo) : Performs op e inc inc' := by
  have hwork : inc'.work = inc.work := work_congr (by rw [h])
  have hobserver : inc'.observer = inc.observer := by rw [h]
  have hhost : inc'.host = inc.host := by rw [h]
  have hfault : inc'.hostFault = inc.hostFault := by rw [h]
  refine ⟨by rw [h], by rw [h], by rw [h], by rw [h], fun h0 => .inl (hfault ▸ h0),
    fun q hq => ?_, fun q hq => .inr (.inl (hrun.leaves q hq)), fun hq => ?_, fun hc => ?_⟩
  · rw [Queued, hwork, hobserver, hhost]
    rcases hq with hq | hq | hq
    · exact .inr (.inl hq)
    · exact (hrun.kept q hq).imp_right fun h0 => .inr (.inl h0)
    · exact .inr (.inr (.inr hq))
  · rw [Queued, hwork, hobserver, hhost] at hq
    rcases hq with hq | hq | hq
    · exact .inl (.inl hq)
    · exact (hrun.inactive hq).imp_left fun h0 => .inr (.inl h0)
    · exact .inl (.inr (.inr hq))
  · rw [hhost]
    exact .inr hc

/-- The section under the observer mutex has run a step of a method. -/
lemma performs_of_observer (h : inc' = { inc with
      page := (op.exec e inc).1.page
      wakeBytes := (op.exec e inc).1.wakeBytes
      observer := inc'.observer })
    (hrun : Runs ObserveOp.page op (op.exec e inc).2 inc.observer.todo inc'.observer.todo) :
    Performs op e inc inc' := by
  have hwork : inc'.work = inc.work := work_congr (by rw [h])
  have hretirement : inc'.retirement = inc.retirement := by rw [h]
  have hhost : inc'.host = inc.host := by rw [h]
  have hfault : inc'.hostFault = inc.hostFault := by rw [h]
  refine ⟨by rw [h], by rw [h], by rw [h], by rw [h], fun h0 => .inl (hfault ▸ h0),
    fun q hq => ?_, fun q hq => .inr (.inr (.inl (hrun.leaves q hq))), fun hq => ?_,
    fun hc => ?_⟩
  · rw [Queued, hwork, hretirement, hhost]
    rcases hq with hq | hq | hq | hq
    · exact .inr (.inl hq)
    · exact .inr (.inr (.inl hq))
    · exact (hrun.kept q hq).imp_right fun h0 => .inr (.inr (.inl h0))
    · exact .inr (.inr (.inr (.inr hq)))
  · rw [Queued, hwork, hretirement, hhost] at hq
    rcases hq with hq | hq | hq | hq
    · exact .inl (.inl hq)
    · exact .inl (.inr (.inl hq))
    · exact (hrun.inactive hq).imp_left fun h0 => .inr (.inr (.inl h0))
    · exact .inl (.inr (.inr (.inr hq)))
  · rw [hhost]
    exact .inr hc

/-- The producer's call has run a step of a method. -/
lemma performs_of_host (h : inc' = { inc with
      page := (op.exec e inc).1.page
      wakeBytes := (op.exec e inc).1.wakeBytes
      host := inc'.host
      hostFault := inc.hostFault || (op == .wake && !e.broken && e.fail) })
    (hrun : Runs HostOp.page op (op.exec e inc).2 inc.host inc'.host) :
    Performs op e inc inc' := by
  have hwork : inc'.work = inc.work := work_congr (by rw [h])
  have hretirement : inc'.retirement = inc.retirement := by rw [h]
  have hobserver : inc'.observer = inc.observer := by rw [h]
  have hfault : inc'.hostFault = (inc.hostFault || (op == .wake && !e.broken && e.fail)) := by
    rw [h]
  refine ⟨by rw [h], by rw [h], by rw [h], by rw [h], fun h0 => ?_, fun q hq => ?_,
    fun q hq => .inr (.inr (.inr (hrun.leaves q hq))), fun hq => ?_, fun hc => ?_⟩
  · rw [hfault] at h0
    simpa [and_assoc] using h0
  · rw [Queued, hwork, hretirement, hobserver]
    rcases hq with hq | hq | hq | hq
    · exact .inr (.inl hq)
    · exact .inr (.inr (.inl hq))
    · exact .inr (.inr (.inr (.inl hq)))
    · exact (hrun.kept q hq).imp_right fun h0 => .inr (.inr (.inr h0))
  · rw [Queued, hwork, hretirement, hobserver] at hq
    rcases hq with hq | hq | hq | hq
    · exact .inl (.inl hq)
    · exact .inl (.inr (.inl hq))
    · exact .inl (.inr (.inr (.inl hq)))
    · exact (hrun.inactive hq).imp_left fun h0 => .inr (.inr (.inr h0))
  · exact (hrun.kept .close hc).imp_left Eq.symm

end Incarnation

/-! ### Operations that are no methods of the page -/

namespace Incarnation

variable {sh : Shared} {inc mid inc' : Incarnation} {e : Env}

/-- What a waiter and its wakers look at. -/
def view (inc : Incarnation) :=
  (inc.page.active, inc.page.capacityEpoch, inc.page.waitInterest, inc.wakeBytes, inc.waiter,
    inc.exited, inc.hostFault, inc.threads, inc.retirement.todo, inc.observer.todo, inc.host)

namespace Unnoticed

lemma of_view (h : inc'.view = inc.view) : inc.Unnoticed inc' := by
  simp only [view, Prod.mk.injEq] at h
  obtain ⟨hactive, hepoch, hinterest, hbytes, hwaiter, hexited, hfault, hthreads, hretirement,
    hobserver, hhost⟩ := h
  exact ⟨hactive, hepoch, hinterest, hbytes, hwaiter, fun h0 => hexited ▸ h0,
    fun h0 => hfault ▸ h0, .of_eq (work_congr hthreads), .of_eq hretirement, .of_eq hobserver,
    .of_eq hhost⟩

lemma trans (h : inc.Unnoticed mid) (h' : mid.Unnoticed inc') : inc.Unnoticed inc' where
  active := h'.active.trans h.active
  capacityEpoch := h'.capacityEpoch.trans h.capacityEpoch
  waitInterest := h'.waitInterest.trans h.waitInterest
  wakeBytes := h'.wakeBytes.trans h.wakeBytes
  waiter := h'.waiter.trans h.waiter
  exited := fun h0 => h.exited (h'.exited h0)
  hostFault := fun h0 => h.hostFault (h'.hostFault h0)
  work := ⟨fun q hq => h'.work.kept q (h.work.kept q hq),
    fun hq => h.work.inactive (h'.work.inactive hq)⟩
  retirement := ⟨fun q hq => h'.retirement.kept q (h.retirement.kept q hq),
    fun hq => h.retirement.inactive (h'.retirement.inactive hq)⟩
  observer := ⟨fun q hq => h'.observer.kept q (h.observer.kept q hq),
    fun hq => h.observer.inactive (h'.observer.inactive hq)⟩
  host := ⟨fun q hq => h'.host.kept q (h.host.kept q hq),
    fun hq => h.host.inactive (h'.host.inactive hq)⟩

/-- A new thread. -/
lemma of_spawn (inc : Incarnation) (role : Role) {todo : List ThreadOp}
    (hnew : .page .inactive ∉ todo) : inc.Unnoticed (inc.spawn role todo) := by
  refine ⟨rfl, rfl, rfl, rfl, rfl, id, id, ?_, .refl _ _, .refl _ _, .refl _ _⟩
  have hwork : (inc.spawn role todo).work = inc.work ++ todo := work_spawn rfl
  rw [hwork]
  exact .append _ hnew

lemma spawn (h : inc.Unnoticed mid) (role : Role) {todo : List ThreadOp}
    (hnew : .page .inactive ∉ todo) : inc.Unnoticed (mid.spawn role todo) :=
  h.trans (of_spawn mid role hnew)

end Unnoticed

lemma setTenant_view (inc : Incarnation) (m : ℕ) (tenant : Tenant) :
    (inc.setTenant m tenant).view = inc.view := rfl

end Incarnation

open Incarnation

lemma OwnerOp.exec_view (inc : Incarnation) (op : OwnerOp) : (op.exec inc).1.view = inc.view := by
  obtain ⟨ms, m, g, h⟩ := op.exec_shape inc
  rw [h]
  rfl

/-- An operation of a thread. -/
lemma ThreadOp.Acts.unnoticed {sh : Shared} {inc inc' : Incarnation} {op : ThreadOp}
    {next : List ThreadOp} (h : op.Acts sh inc inc' next) (hop : ∀ q, op ≠ .page q) :
    inc.Unnoticed inc' ∧ .page .inactive ∉ next := by
  cases h with
  | page q => exact absurd rfl (hop q)
  | owner op => exact ⟨.of_view (op.exec_view inc), by simp⟩
  | endLifetime => exact ⟨.refl _, by simp [closing]⟩
  | enter s htodo =>
      refine ⟨⟨rfl, rfl, rfl, rfl, rfl, id, id, .refl _ _, .of_nil htodo ?_, .refl _ _,
        .refl _ _⟩, by simp⟩
      cases s <;> simp [Section.program]
  | refuse op m => exact ⟨.of_view rfl, by simp [offerDrop]⟩
  | installed m => exact ⟨.of_view rfl, by simp⟩
  | ret r => exact ⟨.of_view rfl, by simp⟩
  | bindSource t => exact ⟨.of_view rfl, by simp⟩
  | _ => exact ⟨.refl _, by simp⟩

/-- An operation under the retirement mutex. -/
lemma SectionOp.exec_unnoticed (e : Env) (inc : Incarnation) {op : SectionOp}
    (hop : ∀ q, op ≠ .page q) :
    inc.Unnoticed (op.exec e inc).1 ∧ .page .inactive ∉ (op.exec e inc).2 := by
  cases op with
  | page q => exact absurd rfl (hop q)
  | drop k op =>
      have hview := op.exec_view inc
      rw [SectionOp.exec]
      split
      · rename_i inc' next _ heq
        rw [heq] at hview
        exact ⟨.of_view hview, by simp⟩
      · rename_i inc' heq
        rw [heq] at hview
        exact ⟨.of_view hview, by simp⟩
  | poll =>
      rw [SectionOp.exec]
      split_ifs <;> exact ⟨.refl _, by simp⟩
  | retire k =>
      rw [SectionOp.exec]
      by_cases hk : inc.frames ≤ k
      · rw [if_pos hk]
        split_ifs <;> exact ⟨.refl _, by simp⟩
      rw [if_neg hk]
      split
      · exact ⟨.refl _, by simp⟩
      · split_ifs
        · exact ⟨.of_view rfl, by simp⟩
        · exact ⟨.of_view rfl, by simp⟩
        · exact ⟨.of_view rfl, by simp⟩
        · exact ⟨.refl _, by simp⟩
  | storePending k =>
      refine ⟨.trans (.of_view ?_) (.of_spawn _ .free ?_), by simp [SectionOp.exec]⟩
      · rfl
      · simp
  | _ => exact ⟨.of_view rfl, by simp [SectionOp.exec]⟩

/-- An operation under the observer mutex. -/
lemma ObserveOp.exec_view (native : Bool) (e : Env) (inc : Incarnation) {op : ObserveOp}
    (hop : ∀ q, op ≠ .page q) :
    (op.exec native e inc).1.view = inc.view ∧ .page .inactive ∉ (op.exec native e inc).2 := by
  cases op with
  | page q => exact absurd rfl (hop q)
  | process => simp only [ObserveOp.exec]; split_ifs <;> exact ⟨rfl, by simp⟩
  | zeroMapping m => simp only [ObserveOp.exec]; split_ifs <;> exact ⟨rfl, by simp⟩
  | exitClaim k => rw [ObserveOp.exec]; split_ifs <;> exact ⟨rfl, by simp⟩
  | exitPending k => simp only [ObserveOp.exec]; split_ifs <;> exact ⟨rfl, by simp⟩
  | deadline => simp only [ObserveOp.exec]; split_ifs <;> exact ⟨rfl, by simp⟩
  | loadPending k => simp only [ObserveOp.exec]; split_ifs <;> exact ⟨rfl, by simp⟩
  | loadValue k t => simp only [ObserveOp.exec]; split_ifs <;> exact ⟨rfl, by simp⟩
  | completed k t v => simp only [ObserveOp.exec]; split_ifs <;> exact ⟨rfl, by simp⟩
  | recheck k t v => rw [ObserveOp.exec]; split_ifs <;> exact ⟨rfl, by simp⟩
  | creditClaim k atExit => cases atExit <;> exact ⟨rfl, by simp [ObserveOp.exec]⟩
  | register => simp only [ObserveOp.exec]; split_ifs <;> exact ⟨rfl, by simp⟩
  | _ => exact ⟨rfl, by simp [ObserveOp.exec]⟩

/-- An operation of the producer's call. -/
lemma HostOp.exec_view (e : Env) (inc : Incarnation) {op : HostOp} (hop : ∀ q, op ≠ .page q) :
    (op.exec e inc).1.view = inc.view ∧ .page .inactive ∉ (op.exec e inc).2 := by
  cases op with
  | page q => exact absurd rfl (hop q)
  | owner op => exact ⟨op.exec_view inc, by simp [HostOp.exec]⟩
  | offerActive generation =>
      cases generation <;> simp only [HostOp.exec] <;> split_ifs <;> exact ⟨rfl, by simp⟩
  | offerOffered g => simp only [HostOp.exec]; split_ifs <;> exact ⟨rfl, by simp⟩
  | offerSlot g m => simp only [HostOp.exec]; split_ifs <;> exact ⟨rfl, by simp⟩
  | offerStore g m => exact ⟨rfl, by simp [HostOp.exec]⟩
  | offerRecheck m => simp only [HostOp.exec]; split_ifs <;> exact ⟨rfl, by simp [offerDrop]⟩
  | registerActive => simp only [HostOp.exec]; split_ifs <;> exact ⟨rfl, by simp⟩

/-! ### The steps of an incarnation -/

namespace Incarnation

variable {sh : Shared} {inc inc' : Incarnation} {e : Env} {l : IncLabel}

/-- **What a step of an incarnation does to its waiter.** -/
inductive Noticed (sh : Shared) (inc : Incarnation) (l : IncLabel) (inc' : Incarnation) : Prop
  | performs (op : PageOp) (e : Env) : inc.runs l = some (op, e) → Performs op e inc inc' →
      Noticed sh inc l inc'
  | waiter (w : Waiter) (e : Env) : inc.waiter = some w → inc.exited = false →
      inc.waiterStep sh e w = some inc' → Noticed sh inc l inc'
  | arms (observed : WaitEvents) (interest : WaitInterest) :
      inc' = { inc with
        page := { inc.page with waitInterest := interest.armed }
        waiter := some { observed, interest } } → Noticed sh inc l inc'
  | quiet : inc.Unnoticed inc' → Noticed sh inc l inc'

/-- A thread runs its next operation. -/
lemma threadStep_noticed {t : ℕ} (hs : inc.threadStep sh e t = some inc') :
    Noticed sh inc (.thread t e) inc' := by
  obtain ⟨op, rest, role, mid, next, ht, -, hop, rfl⟩ := threadStep_shape hs
  by_cases hpage : ∃ q, op = .page q
  · obtain ⟨q, rfl⟩ := hpage
    simp only [ThreadOp.exec, Option.some.injEq, Prod.mk.injEq] at hop
    obtain ⟨rfl, rfl⟩ := hop
    refine .performs q e (by rw [runs, ht]) ?_
    obtain ⟨hpage, hbytes, hnext⟩ := q.exec_congr e inc
      { inc with threads := inc.threads.set t ⟨rest, role⟩ } rfl rfl
    obtain ⟨active, quiescent, epoch, bytes, hshape⟩ := q.exec_shape e
      { inc with threads := inc.threads.set t ⟨rest, role⟩ }
    rw [hnext]
    refine performs_of_work ?_ ?_
    · rw [← hpage, ← hbytes, hshape]
    · obtain ⟨a, b, hwork, hwork'⟩ := work_step
        { (q.exec e { inc with threads := inc.threads.set t ⟨rest, role⟩ }).1 with
          threads := inc.threads.set t ⟨(q.exec e inc).2.map .page ++ rest, role⟩ } ht rfl
      rw [hwork, hwork']
      exact .mk' (fun _ _ h0 => ThreadOp.page.inj h0) q _ a _
  · have hne : ∀ q, op ≠ .page q := fun q h0 => hpage ⟨q, h0⟩
    obtain ⟨hquiet, hnext⟩ := (ThreadOp.acts_of_exec hop).unnoticed hne
    refine .quiet ⟨hquiet.active, hquiet.capacityEpoch, hquiet.waitInterest, hquiet.wakeBytes,
      hquiet.waiter, hquiet.exited, hquiet.hostFault, ?_, hquiet.retirement, hquiet.observer,
      hquiet.host⟩
    obtain ⟨a, b, hwork, hwork'⟩ := work_step
      { mid with threads := inc.threads.set t ⟨next ++ rest, role⟩ } ht rfl
    rw [hwork, hwork']
    exact .run a _ hne hnext

/-- The section under the retirement mutex runs its next operation. -/
lemma retireStep_noticed (hs : inc.retireStep e = some inc') : Noticed sh inc (.retire e) inc' := by
  obtain ⟨op, rest, htodo, -, rfl⟩ := retireStep_shape hs
  by_cases hpage : ∃ q, op = .page q
  · obtain ⟨q, rfl⟩ := hpage
    refine .performs q e (by rw [runs, htodo]) ?_
    obtain ⟨hpage, hbytes, hnext⟩ := q.exec_congr e inc
      { inc with retirement := { inc.retirement with todo := rest } } rfl rfl
    obtain ⟨active, quiescent, epoch, bytes, hshape⟩ := q.exec_shape e
      { inc with retirement := { inc.retirement with todo := rest } }
    refine performs_of_retirement ?_ ?_
    · rw [← hpage, ← hbytes]
      simp only [SectionOp.exec, hshape]
    · rw [htodo]
      simp only [SectionOp.exec, hnext]
      exact .mk' (fun _ _ h0 => SectionOp.page.inj h0) q _ [] rest
  · have hne : ∀ q, op ≠ .page q := fun q h0 => hpage ⟨q, h0⟩
    obtain ⟨hquiet, hnext⟩ := SectionOp.exec_unnoticed e
      { inc with retirement := { inc.retirement with todo := rest } } hne
    refine .quiet ⟨hquiet.active, hquiet.capacityEpoch, hquiet.waitInterest, hquiet.wakeBytes,
      hquiet.waiter, hquiet.exited, hquiet.hostFault, hquiet.work, ?_, hquiet.observer,
      hquiet.host⟩
    rw [htodo]
    exact .run [] rest hne hnext

/-- The section under the observer mutex runs its next operation. -/
lemma observeStep_noticed (hs : inc.observeStep sh.native e = some inc') :
    Noticed sh inc (.observe e) inc' := by
  obtain ⟨op, rest, htodo, rfl⟩ := observeStep_shape hs
  by_cases hpage : ∃ q, op = .page q
  · obtain ⟨q, rfl⟩ := hpage
    refine .performs q e (by rw [runs, htodo]) ?_
    obtain ⟨active, quiescent, epoch, bytes, hshape⟩ := q.exec_shape e inc
    refine performs_of_observer ?_ ?_
    · simp only [ObserveOp.exec, hshape]
    · rw [htodo]
      exact .mk' (fun _ _ h0 => ObserveOp.page.inj h0) q _ [] rest
  · have hne : ∀ q, op ≠ .page q := fun q h0 => hpage ⟨q, h0⟩
    obtain ⟨hview, hnext⟩ := ObserveOp.exec_view sh.native e inc hne
    have hquiet := Unnoticed.of_view hview
    refine .quiet ⟨hquiet.active, hquiet.capacityEpoch, hquiet.waitInterest, hquiet.wakeBytes,
      hquiet.waiter, hquiet.exited, hquiet.hostFault, hquiet.work, hquiet.retirement, ?_,
      hquiet.host⟩
    rw [htodo]
    exact .run [] rest hne hnext

/-- The producer's call runs its next operation. -/
lemma hostStep_noticed (hs : inc.hostStep e = some inc') : Noticed sh inc (.host e) inc' := by
  obtain ⟨op, rest, htodo, rfl⟩ := hostStep_shape hs
  by_cases hpage : ∃ q, op = .page q
  · obtain ⟨q, rfl⟩ := hpage
    refine .performs q e (by rw [runs, htodo]) ?_
    obtain ⟨active, quiescent, epoch, bytes, hshape⟩ := q.exec_shape e inc
    refine performs_of_host ?_ ?_
    · simp only [HostOp.exec, hshape]
    · rw [htodo]
      exact .mk' (fun _ _ h0 => HostOp.page.inj h0) q _ [] rest
  · have hne : ∀ q, op ≠ .page q := fun q h0 => hpage ⟨q, h0⟩
    obtain ⟨hview, hnext⟩ := HostOp.exec_view e inc hne
    have hquiet := Unnoticed.of_view hview
    refine .quiet ⟨hquiet.active, hquiet.capacityEpoch, hquiet.waitInterest, hquiet.wakeBytes,
      hquiet.waiter, hquiet.exited, hquiet.hostFault, hquiet.work, hquiet.retirement,
      hquiet.observer, ?_⟩
    rw [htodo]
    exact .run [] rest hne hnext

/-- An unconsumed grant or offer is dropped. -/
lemma dropSetup_unnoticed {m : ℕ} {place : Place} {todo : List ThreadOp}
    (hs : inc.dropSetup m place todo = some inc') (hnew : .page .inactive ∉ todo) :
    inc.Unnoticed inc' := by
  obtain ⟨role, -, rfl⟩ := dropSetup_shape hs
  exact .spawn (.of_view (setTenant_view inc m _)) role hnew

/-- **Every step of an incarnation.** -/
theorem step_noticed (hs : inc.step sh l = some inc') : Noticed sh inc l inc' := by
  cases l with
  | thread t e => exact threadStep_noticed hs
  | retire e => exact retireStep_noticed hs
  | observe e => exact observeStep_noticed hs
  | host e => exact hostStep_noticed hs
  | waiter e =>
      rw [step] at hs
      split at hs
      · rename_i w hw
        split_ifs at hs with hx
        exact .waiter w e hw (by simpa using hx) hs
      · cases hs
  | wait observed interest =>
      rw [step] at hs
      split_ifs at hs
      exact .arms observed interest (Option.some.inj hs).symm
  | exportGrant =>
      rw [step] at hs
      split at hs
      · rw [← Option.some.inj hs]
        exact .quiet (.of_view rfl)
      · cases hs
  | importGrant =>
      rw [step] at hs
      split at hs
      · split_ifs at hs
        rw [← Option.some.inj hs]
        exact .quiet (.of_view rfl)
      · cases hs
  | fromGrant e =>
      rw [step] at hs
      split at hs
      · split_ifs at hs
        · exact .quiet (dropSetup_unnoticed hs (by simp [grantDrop]))
        · rw [← Option.some.inj hs]
          refine .quiet (.spawn ?_ .consumer (by simp))
          exact .of_view rfl
      · cases hs
  | dropGrant =>
      rw [step] at hs
      split at hs
      · exact .quiet (dropSetup_unnoticed hs (by simp [grantDrop]))
      · cases hs
  | exportOffer m =>
      rw [step] at hs
      split at hs
      · split_ifs at hs
        rw [← Option.some.inj hs]
        exact .quiet (.of_view rfl)
      · cases hs
  | importOffer m =>
      rw [step] at hs
      split at hs
      · split_ifs at hs
        rw [← Option.some.inj hs]
        exact .quiet (.of_view rfl)
      · cases hs
  | dropOffer m =>
      rw [step] at hs
      split at hs
      · exact .quiet (dropSetup_unnoticed hs (by simp [offerDrop]))
      · cases hs
  | install m =>
      rw [step] at hs
      split at hs
      · split_ifs at hs
        rw [← Option.some.inj hs]
        refine .quiet (.spawn ?_ .consumer (by simp))
        exact .of_view rfl
      · cases hs
  | relinquish =>
      rw [step] at hs
      split_ifs at hs
      rw [← Option.some.inj hs]
      refine .quiet (.spawn ?_ .consumer ?_)
      · exact .of_view rfl
      · split <;> simp
  | dropConsumer =>
      rw [step] at hs
      split_ifs at hs
      rw [← Option.some.inj hs]
      refine .quiet (.spawn ?_ .free ?_)
      · exact .of_view rfl
      · split <;> simp
  | bind t =>
      rw [step] at hs
      split_ifs at hs
      rw [← Option.some.inj hs]
      exact .quiet (.of_spawn _ .call (by simp))
  | begin client request =>
      rw [step] at hs
      split_ifs at hs
      rw [← Option.some.inj hs]
      exact .quiet (.of_view rfl)
  | call t =>
      rw [step] at hs
      split_ifs at hs
      obtain ⟨call, -, ⟨pc, -, rfl⟩ | ⟨o, -, rfl⟩ | ⟨c, idx, k, m, x, -, -, -, rfl⟩⟩ :=
        callStep_shape hs
      · exact .quiet (.of_view rfl)
      · exact .quiet (.of_view rfl)
      · exact .quiet (.of_view rfl)
  | use k e =>
      rw [step] at hs
      split at hs
      · rename_i u hu
        split_ifs at hs
        cases useActs_of_step hs with
        | returnClaim =>
            refine .quiet (.spawn ?_ _ ?_)
            · exact .of_view rfl
            · simp [releaseTail]
        | _ => exact .quiet (.of_view rfl)
      · cases hs
  | release k =>
      rw [step] at hs
      split at hs
      · split_ifs at hs
        rw [← Option.some.inj hs]
        exact .quiet (.of_view rfl)
      · cases hs
  | defer k t v e =>
      rw [step] at hs
      split at hs
      · split at hs
        · split_ifs at hs with hc
          rw [← Option.some.inj hs, handoff]
          split_ifs
          · exact .quiet (.of_view rfl)
          · exact .quiet (.of_view rfl)
          · exact .quiet ⟨rfl, rfl, rfl, rfl, rfl, id, id, .refl _ _,
              .of_nil hc.2.2.2 (by simp), .refl _ _, .refl _ _⟩
        · cases hs
      · cases hs
  | retryRetirement =>
      rw [step] at hs
      split_ifs at hs
      rw [← Option.some.inj hs]
      exact .quiet (.of_view rfl)
  | workerPoll =>
      rw [step] at hs
      split_ifs at hs with hc
      rw [← Option.some.inj hs]
      exact .quiet ⟨rfl, rfl, rfl, rfl, rfl, id, id, .refl _ _, .of_nil hc.2.2 (by simp),
        .refl _ _, .refl _ _⟩
  | observerPoll =>
      rw [step] at hs
      split_ifs at hs with hc
      rw [← Option.some.inj hs]
      exact .quiet ⟨rfl, rfl, rfl, rfl, rfl, id, id, .refl _ _, .refl _ _,
        .of_nil hc.2.2 (by simp), .refl _ _⟩
  | observerFail =>
      rw [step] at hs
      split_ifs at hs with hc
      rw [← Option.some.inj hs]
      exact .quiet ⟨rfl, rfl, rfl, rfl, rfl, id, id, .refl _ _, .refl _ _,
        .of_nil hc.2.2 (by simp), .refl _ _⟩
  | exit =>
      rw [step] at hs
      split_ifs at hs with hc
      rw [← Option.some.inj hs]
      exact .quiet ⟨rfl, rfl, rfl, rfl, rfl, fun _ => hc.2, id, .refl _ _, .refl _ _, .refl _ _,
        .refl _ _⟩

/-- **What the producer's code does to an incarnation, no waiter can notice.** -/
theorem Attended.unnoticed (h : inc.Attended inc') : inc.Unnoticed inc' := by
  cases h with
  | observer o ho =>
      refine ⟨rfl, rfl, rfl, rfl, rfl, id, id, .refl _ _, .refl _ _, ?_, .refl _ _⟩
      rcases ho with ho | ⟨hidle, ho | ho⟩
      · exact .of_eq ho
      · exact .of_nil hidle (by rw [ho]; simp)
      · exact .of_nil hidle (by rw [ho]; simp)
  | call op hidle hop =>
      refine ⟨rfl, rfl, rfl, rfl, rfl, id, by rintro ⟨⟩, .refl _ _, .refl _ _, .refl _ _,
        .of_nil hidle fun h0 => ?_⟩
      rw [← List.mem_singleton.mp h0] at hop
      exact hop

end Incarnation

end Jackstay.Acquisition
