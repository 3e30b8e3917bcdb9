import Jackstay.Acquisition.Arena.Signalling
import Jackstay.Acquisition.Arena.Tracking

/-!
`acquisition/arena/wait.rs`: no wakeup is lost.

`ArenaConsumer::wait` arms `WAIT_INTEREST`, drains its channel, reads the five words of its
events and sleeps. A writer stores its word, loads the interest and then wakes the channel:
`ClaimMap::signal` on every claim page behind `LATEST` and `RECONFIGURATION_EPOCH`,
`return_credit` behind `CAPACITY_EPOCH`, `ClaimMap::close` behind `ACTIVE`, and a loop of
`close` behind `TERMINAL`.

* `Incarnation.Signalled`: a byte is in the channel, or a signal of the event is under way.
* `Watched`: each word that the waiter has read in this round is as it was, or its event is
  signalled; a word of another round is not looked at.
* `wakeup_never_lost`: if every wake that is tried succeeds, a waiter that sleeps behind a
  change has a byte in its channel, or a writer is between its store and its wake.
-/

namespace Jackstay.Acquisition

open Transition

/-! ### What a waiter is owed -/

/-- The loop over the claim pages that makes this call has still to come to this page. -/
def Pc.Owes (i : ℕ) (call : PageCall) : Pc → Prop
  | .pages c todo _ => c = call ∧ i ∈ todo
  | .paged c _ todo _ => c = call ∧ i ∈ todo
  | _ => False

/-- `ArenaConsumer::events`, of one moment. -/
def Incarnation.events (sh : Shared) (inc : Incarnation) : WaitEvents where
  dataCursor := sh.control.latest
  capacityEpoch := inc.page.capacityEpoch
  reconfigurationEpoch := sh.control.reconfigurationEpoch
  closed := inc.page.active == 0 || sh.control.terminal != 0

/-- **A signal of the event has reached the channel or is under way**, where `pc` is the
producer's program counter. -/
def Incarnation.Signalled (inc : Incarnation) (pc : Pc) (i : ℕ) (event : Event) : Prop :=
  inc.wakeBytes ≠ 0 ∨ inc.Queued .wake ∨ inc.Queued (.interest event) ∨ pc.Owes i (.signal event)

/-- The producer is about to close the page. -/
def Incarnation.Closing (inc : Incarnation) (pc : Pc) (i : ℕ) : Prop :=
  pc.Owes i .close ∨ .page .close ∈ inc.host

/-- How many of the five words the waiter has read in this round. -/
def WaiterPc.round : WaiterPc → ℕ
  | .drain => 0
  | .cancelled => 0
  | .data => 0
  | .capacity => 1
  | .reconfiguration => 2
  | .active => 3
  | .terminal => 4
  | .decide => 5
  | .asleep => 5
  | .disarm _ => 0

/-- **What the waiter has read is current, or it is going to be woken.** -/
structure Watched (sh : Shared) (pc : Pc) (i : ℕ) (inc : Incarnation) (w : Waiter) : Prop where
  armed : inc.page.waitInterest = w.interest.armed
  data : 1 ≤ w.pc.round → w.interest.contains .data = true →
    w.read.dataCursor = sh.control.latest ∨ inc.Signalled pc i .data
  capacity : 2 ≤ w.pc.round → w.interest.contains .capacity = true →
    w.read.capacityEpoch = inc.page.capacityEpoch ∨ inc.Signalled pc i .capacity
  reconfiguration : 3 ≤ w.pc.round →
    w.read.reconfigurationEpoch = sh.control.reconfigurationEpoch ∨
      inc.Signalled pc i .reconfiguration
  active : w.pc = .terminal ∨ 5 ≤ w.pc.round ∧ w.read.closed = false →
    inc.page.active ≠ 0 ∨ inc.Signalled pc i .closed
  terminal : 5 ≤ w.pc.round → w.read.closed = false →
    sh.control.terminal = 0 ∨ inc.page.active = 0 ∨ inc.Closing pc i
  asleep : w.pc = .asleep → w.interest.changed w.observed w.read = false

/-- The answer lets the wake through. -/
def Env.delivers (e : Env) : Bool := !e.broken && !e.fail

namespace Incarnation

variable {sh : Shared} {pc : Pc} {i : ℕ} {inc inc' : Incarnation} {w : Waiter} {e : Env}
  {op : PageOp} {event : Event}

/-- What an interest includes is armed. -/
lemma armed_of_contains {interest : WaitInterest} (h : interest.contains event = true) :
    interest.armed event = true := by
  rw [WaitInterest.armed, h, Bool.true_or, Bool.true_or]

lemma Unnoticed.signalled (h : inc.Unnoticed inc') (hs : inc.Signalled pc i event) :
    inc'.Signalled pc i event := by
  rcases hs with hbytes | hwake | hinterest | howes
  · exact .inl (by rw [h.wakeBytes]; exact hbytes)
  · exact .inr (.inl (h.queued hwake))
  · exact .inr (.inr (.inl (h.queued hinterest)))
  · exact .inr (.inr (.inr howes))

lemma Unnoticed.closing (h : inc.Unnoticed inc') (hc : inc.Closing pc i) :
    inc'.Closing pc i :=
  hc.imp_right fun h0 => h.host.kept .close h0

/-- A wake that succeeds leaves a byte in the channel. -/
lemma wakeBytes_of_wake (he : e.delivers = true) :
    ((PageOp.wake).exec e inc).1.wakeBytes ≠ 0 := by
  simp only [Env.delivers, Bool.and_eq_true, Bool.not_eq_true'] at he
  rw [PageOp.exec, he.1, he.2, if_neg Bool.false_ne_true, if_neg Bool.false_ne_true]
  split_ifs with hfull
  · exact hfull.2
  · exact Nat.succ_ne_zero _

/-- No method takes a byte out of the channel. -/
lemma le_wakeBytes (e : Env) (inc : Incarnation) (op : PageOp) :
    inc.wakeBytes ≤ (op.exec e inc).1.wakeBytes := by
  cases op with
  | wake =>
      rw [PageOp.exec]
      split_ifs
      · exact le_rfl
      · exact le_rfl
      · exact le_rfl
      · exact Nat.le_succ _
  | _ => exact le_rfl

/-- **A signal that is under way stays under way until the channel has its byte.** -/
lemma Performs.signalled (h : Performs op e inc inc') (hok : op = .wake → e.delivers = true)
    (harmed : inc.page.waitInterest event = true) (hs : inc.Signalled pc i event) :
    inc'.Signalled pc i event := by
  have hle := le_wakeBytes e inc op
  rw [← h.wakeBytes] at hle
  rcases hs with hbytes | hwake | hinterest | howes
  · exact .inl (by omega)
  · rcases h.kept .wake hwake with rfl | hkept
    · left
      rw [h.wakeBytes]
      exact wakeBytes_of_wake (hok rfl)
    · exact .inr (.inl hkept)
  · rcases h.kept (.interest event) hinterest with rfl | hkept
    · refine .inr (.inl (h.leaves .wake ?_))
      rw [PageOp.exec, if_pos harmed]
      exact List.mem_cons_self
    · exact .inr (.inr (.inl hkept))
  · exact .inr (.inr (.inr howes))

/-- The capacity epoch is stored before its signal. -/
lemma Performs.capacity (h : Performs op e inc inc') :
    inc'.page.capacityEpoch = inc.page.capacityEpoch ∨ inc'.Queued (.interest .capacity) := by
  cases op with
  | epoch =>
      refine .inr (h.leaves _ ?_)
      rw [PageOp.exec]
      split_ifs
      · exact List.mem_cons_of_mem _ List.mem_cons_self
      · exact List.mem_cons_self
  | wake =>
      left
      rw [h.page, PageOp.exec]
      split_ifs <;> rfl
  | _ => exact .inl (by rw [h.page]; rfl)

/-- The page is closed before the signal of its closure. -/
lemma Performs.active (h : Performs op e inc inc') (hop : op ≠ .inactive) :
    inc'.page.active = inc.page.active ∨ inc'.Queued (.interest .closed) := by
  cases op with
  | close =>
      by_cases h0 : inc.page.active = 0
      · left
        rw [h.page, h0]
        rfl
      · refine .inr (h.leaves _ ?_)
        rw [PageOp.exec, if_neg h0]
        exact List.mem_cons_self
  | inactive => exact absurd rfl hop
  | wake =>
      left
      rw [h.page, PageOp.exec]
      split_ifs <;> rfl
  | _ => exact .inl (by rw [h.page]; rfl)

/-- A page that is closed stays closed. -/
lemma Performs.closed (h : Performs op e inc inc') (h0 : inc.page.active = 0) :
    inc'.page.active = 0 := by
  rw [h.page]
  cases op with
  | wake =>
      rw [PageOp.exec]
      split_ifs <;> exact h0
  | close => rfl
  | inactive => rfl
  | _ => exact h0

/-- What the producer closes gets closed. -/
lemma Performs.closing (h : Performs op e inc inc') (hc : inc.Closing pc i) :
    inc'.page.active = 0 ∨ inc'.Closing pc i := by
  rcases hc with howes | hhost
  · exact .inr (.inl howes)
  · rcases h.close hhost with rfl | hkept
    · left
      rw [h.page]
      rfl
    · exact .inr (.inr hkept)

/-- No method changes what the waiter has armed. -/
lemma Performs.waitInterest (h : Performs op e inc inc') :
    inc'.page.waitInterest = inc.page.waitInterest := by
  rw [h.page]
  cases op with
  | wake =>
      rw [PageOp.exec]
      split_ifs <;> rfl
  | _ => rfl

end Incarnation

namespace Watched

variable {sh sh' : Shared} {pc pc' : Pc} {i : ℕ} {inc inc' : Incarnation} {w : Waiter} {e : Env}
  {op : PageOp}

/-- A step that the waiter cannot notice. -/
lemma unnoticed (h : Watched sh pc i inc w) (hs : inc.Unnoticed inc') :
    Watched sh pc i inc' w where
  armed := hs.waitInterest.trans h.armed
  data := fun h1 hc => (h.data h1 hc).imp_right hs.signalled
  capacity := fun h2 hc => by
    rw [hs.capacityEpoch]
    exact (h.capacity h2 hc).imp_right hs.signalled
  reconfiguration := fun h3 => (h.reconfiguration h3).imp_right hs.signalled
  active := fun h4 => by
    rw [hs.active]
    exact (h.active h4).imp_right hs.signalled
  terminal := fun h5 hopen => by
    rw [hs.active]
    exact (h.terminal h5 hopen).imp_right fun h0 => h0.imp_right hs.closing
  asleep := h.asleep

/-- **A step of a writer.** -/
lemma performs (h : Watched sh pc i inc w) (hs : Incarnation.Performs op e inc inc')
    (hok : op = .wake → e.delivers = true) (hop : op ≠ .inactive) :
    Watched sh pc i inc' w := by
  have keeps : ∀ event, w.interest.armed event = true → inc.Signalled pc i event →
      inc'.Signalled pc i event := by
    intro event harmed
    exact hs.signalled hok (by rw [h.armed]; exact harmed)
  refine ⟨hs.waitInterest.trans h.armed, fun h1 hc => ?_, fun h2 hc => ?_, fun h3 => ?_,
    fun h4 => ?_, fun h5 hopen => ?_, h.asleep⟩
  · exact (h.data h1 hc).imp_right (keeps .data (Incarnation.armed_of_contains hc))
  · rcases hs.capacity with hsame | hqueued
    · rw [hsame]
      exact (h.capacity h2 hc).imp_right (keeps .capacity (Incarnation.armed_of_contains hc))
    · exact .inr (.inr (.inr (.inl hqueued)))
  · refine (h.reconfiguration h3).imp_right (keeps .reconfiguration ?_)
    rw [WaitInterest.armed]
    exact Bool.or_true _
  · rcases hs.active hop with hsame | hqueued
    · rw [hsame]
      refine (h.active h4).imp_right (keeps .closed ?_)
      rw [WaitInterest.armed]
      simp
    · exact .inr (.inr (.inr (.inl hqueued)))
  · rcases h.terminal h5 hopen with h0 | hclosed | hclosing
    · exact .inl h0
    · exact .inr (.inl (hs.closed hclosed))
    · exact .inr (hs.closing hclosing)

/-- Nothing has been read yet. -/
lemma of_round (harmed : inc.page.waitInterest = w.interest.armed) (hround : w.pc.round = 0) :
    Watched sh pc i inc w := by
  refine ⟨harmed, fun h1 => ?_, fun h2 => ?_, fun h3 => ?_, fun h4 => ?_, fun h5 => ?_,
    fun h0 => ?_⟩
  · omega
  · omega
  · omega
  · rcases h4 with h4 | ⟨h5, -⟩
    · rw [h4] at hround
      cases hround
    · omega
  · omega
  · rw [h0] at hround
    cases hround

/-- **A step of the waiter**: a word that it reads is current. -/
lemma waiter (h : Watched sh pc i inc w) (hs : inc.waiterStep sh e w = some inc') :
    ∀ w', inc'.waiter = some w' → Watched sh pc i inc' w' := by
  obtain ⟨observed, interest, read, wpc⟩ := w
  have harmed := h.armed
  cases wpc with
  | drain =>
      simp only [Incarnation.waiterStep, Option.some.injEq] at hs
      split_ifs at hs <;> subst hs <;> rintro w' ⟨⟩ <;> exact of_round harmed rfl
  | cancelled =>
      simp only [Incarnation.waiterStep, Option.some.injEq] at hs
      split_ifs at hs <;> subst hs <;> rintro w' ⟨⟩ <;> exact of_round harmed rfl
  | data =>
      simp only [Incarnation.waiterStep, Option.some.injEq] at hs
      subst hs
      rintro w' ⟨⟩
      exact ⟨harmed, fun _ _ => .inl rfl, fun h2 => absurd h2 (by simp [WaiterPc.round]),
        fun h3 => absurd h3 (by simp [WaiterPc.round]), fun h4 => absurd h4 (by simp [WaiterPc.round]),
        fun h5 => absurd h5 (by simp [WaiterPc.round]), by rintro ⟨⟩⟩
  | capacity =>
      simp only [Incarnation.waiterStep, Option.some.injEq] at hs
      subst hs
      rintro w' ⟨⟩
      exact ⟨harmed, fun _ => h.data (by simp [WaiterPc.round]), fun _ _ => .inl rfl,
        fun h3 => absurd h3 (by simp [WaiterPc.round]), fun h4 => absurd h4 (by simp [WaiterPc.round]),
        fun h5 => absurd h5 (by simp [WaiterPc.round]), by rintro ⟨⟩⟩
  | reconfiguration =>
      simp only [Incarnation.waiterStep, Option.some.injEq] at hs
      subst hs
      rintro w' ⟨⟩
      exact ⟨harmed, fun _ => h.data (by simp [WaiterPc.round]), fun _ => h.capacity (by simp [WaiterPc.round]),
        fun _ => .inl rfl, fun h4 => absurd h4 (by simp [WaiterPc.round]), fun h5 => absurd h5 (by simp [WaiterPc.round]),
        by rintro ⟨⟩⟩
  | active =>
      simp only [Incarnation.waiterStep, Option.some.injEq] at hs
      split_ifs at hs with hclosed
      · subst hs
        rintro w' ⟨⟩
        refine ⟨harmed, fun _ => h.data (by simp [WaiterPc.round]), fun _ => h.capacity (by simp [WaiterPc.round]),
          fun _ => h.reconfiguration (by simp [WaiterPc.round]), ?_, by rintro _ ⟨⟩, by rintro ⟨⟩⟩
        rintro (h0 | ⟨-, h0⟩) <;> cases h0
      · subst hs
        rintro w' ⟨⟩
        exact ⟨harmed, fun _ => h.data (by simp [WaiterPc.round]), fun _ => h.capacity (by simp [WaiterPc.round]),
          fun _ => h.reconfiguration (by simp [WaiterPc.round]), fun _ => .inl hclosed,
          fun h5 => absurd h5 (by simp [WaiterPc.round]), by rintro ⟨⟩⟩
  | terminal =>
      simp only [Incarnation.waiterStep, Option.some.injEq] at hs
      subst hs
      rintro w' ⟨⟩
      refine ⟨harmed, fun _ => h.data (by simp [WaiterPc.round]), fun _ => h.capacity (by simp [WaiterPc.round]),
        fun _ => h.reconfiguration (by simp [WaiterPc.round]), fun _ => h.active (.inl rfl), fun _ hopen => ?_,
        by rintro ⟨⟩⟩
      exact .inl (by simpa using hopen)
  | decide =>
      simp only [Incarnation.waiterStep, Option.some.injEq] at hs
      split_ifs at hs with hchanged
      · subst hs
        rintro w' ⟨⟩
        exact of_round harmed rfl
      · subst hs
        rintro w' ⟨⟩
        exact of_round harmed rfl
      · subst hs
        rintro w' ⟨⟩
        exact ⟨harmed, fun _ => h.data (by simp [WaiterPc.round]), fun _ => h.capacity (by simp [WaiterPc.round]),
          fun _ => h.reconfiguration (by simp [WaiterPc.round]), fun h5 => h.active (.inr ⟨by simp [WaiterPc.round], (h5.resolve_left (by rintro ⟨⟩)).2⟩),
          fun _ => h.terminal (by simp [WaiterPc.round]), fun _ => by simpa using hchanged⟩
  | asleep =>
      simp only [Incarnation.waiterStep] at hs
      split_ifs at hs <;> rw [Option.some.injEq] at hs <;> subst hs <;> rintro w' ⟨⟩ <;>
        exact of_round harmed rfl
  | disarm outcome =>
      simp only [Incarnation.waiterStep, Option.some.injEq] at hs
      subst hs
      rintro w' ⟨⟩

/-- **A step of the producer**: what it stores it owes to the waiter, and what it owes it
still owes or has begun. -/
lemma steered (h : Watched sh pc i inc w)
    (hlatest : sh'.control.latest = sh.control.latest ∨ pc'.Owes i (.signal .data))
    (hepoch : sh'.control.reconfigurationEpoch = sh.control.reconfigurationEpoch ∨
      pc'.Owes i (.signal .reconfiguration))
    (hterminal : sh'.control.terminal = sh.control.terminal ∨ pc'.Owes i .close)
    (howes : ∀ call, pc.Owes i call → pc'.Owes i call ∨ .page call.op ∈ inc.host) :
    Watched sh' pc' i inc w := by
  have signalled : ∀ {event}, inc.Signalled pc i event → inc.Signalled pc' i event := by
    intro event hs
    rcases hs with hbytes | hwake | hinterest | h0
    · exact .inl hbytes
    · exact .inr (.inl hwake)
    · exact .inr (.inr (.inl hinterest))
    · rcases howes (.signal event) h0 with h0 | hbegun
      · exact .inr (.inr (.inr h0))
      · exact .inr (.inr (.inl (.inr (.inr (.inr hbegun)))))
  refine ⟨h.armed, fun h1 hc => ?_, fun h2 hc => (h.capacity h2 hc).imp_right signalled,
    fun h3 => ?_, fun h4 => (h.active h4).imp_right signalled, fun h5 hopen => ?_, h.asleep⟩
  · rcases hlatest with hsame | h0
    · rw [hsame]
      exact (h.data h1 hc).imp_right signalled
    · exact .inr (.inr (.inr (.inr h0)))
  · rcases hepoch with hsame | h0
    · rw [hsame]
      exact (h.reconfiguration h3).imp_right signalled
    · exact .inr (.inr (.inr (.inr h0)))
  · rcases hterminal with hsame | h0
    · rw [hsame]
      rcases h.terminal h5 hopen with hrunning | hclosed | h0 | hhost
      · exact .inl hrunning
      · exact .inr (.inl hclosed)
      · exact .inr (.inr (howes .close h0))
      · exact .inr (.inr (.inr hhost))
    · exact .inr (.inr (.inl h0))

end Watched

/-! ### What the producer owes -/

/-- The control flow of the producer forgets no page, unless a wake has failed. -/
lemma Pc.Flows.owes {s : Arena} {pc pc' : Pc} (h : pc.Flows s pc')
    (hfault : ∀ j inc, s.incarnations j = some inc → inc.hostFault = false) {i : ℕ}
    {call : PageCall} (howes : pc.Owes i call) : pc'.Owes i call := by
  cases h with
  | paged call i todo after => exact howes
  | pagesFailed call j todo after inc hj _ _ h0 => cases (hfault j inc hj).symm.trans h0
  | pagesReleased call j todo g index o inc hj _ _ h0 => cases (hfault j inc hj).symm.trans h0
  | finished => cases howes.2
  | released => cases howes.2
  | advance => cases howes.2
  | dropped => cases howes.2
  | _ => exact howes.elim

namespace Arena

variable {s s' : Arena} {i : ℕ}

/-- **What a step of the producer stores and owes to a page.** -/
structure Steers (i : ℕ) (s s' : Arena) : Prop where
  latest : s'.shared.control.latest = s.shared.control.latest ∨
    s'.producer.pc.Owes i (.signal .data)
  epoch : s'.shared.control.reconfigurationEpoch = s.shared.control.reconfigurationEpoch ∨
    s'.producer.pc.Owes i (.signal .reconfiguration)
  terminal : s'.shared.control.terminal = s.shared.control.terminal ∨
    s'.producer.pc.Owes i .close
  owes : ∀ call, s.producer.pc.Owes i call → s'.producer.pc.Owes i call ∨
    ∀ inc', s'.incarnations i = some inc' → .page call.op ∈ inc'.host

/-- The producer's counter stays where it is. -/
lemma Steers.of_pc (hcontrol : s'.shared.control = s.shared.control)
    (hpc : s'.producer.pc = s.producer.pc) : Steers i s s' :=
  ⟨.inl (by rw [hcontrol]), .inl (by rw [hcontrol]), .inl (by rw [hcontrol]),
    fun call howes => .inl (by rw [hpc]; exact howes)⟩

/-- The producer is at no loop over the pages, and stores no word of the events. -/
lemma Steers.of_idle (hlatest : s'.shared.control.latest = s.shared.control.latest)
    (hepoch : s'.shared.control.reconfigurationEpoch = s.shared.control.reconfigurationEpoch)
    (hterminal : s'.shared.control.terminal = s.shared.control.terminal) {pc : Pc}
    (hpc : s.producer.pc = pc) (hidle : ∀ call, ¬ pc.Owes i call) : Steers i s s' := by
  refine ⟨.inl hlatest, .inl hepoch, .inl hterminal, fun call howes => ?_⟩
  rw [hpc] at howes
  exact absurd howes (hidle call)

/-- **Every step pays its debts or keeps them.** -/
lemma Acts.steers (hs : s.Acts s') (hl : Ledger s) (hi : i ∈ s.producer.claims)
    (hfault : ∀ j inc, s.incarnations j = some inc → inc.hostFault = false) : Steers i s s' := by
  have idle : ∀ {pc}, s'.shared.control = s.shared.control → s.producer.pc = pc →
      (∀ call, ¬ pc.Owes i call) → Steers i s s' := fun hcontrol =>
    .of_idle (by rw [hcontrol]) (by rw [hcontrol]) (by rw [hcontrol])
  cases hs with
  | incarnation j inc inc' hj ha => exact .of_pc rfl rfl
  | write g index bytes => exact .of_pc rfl rfl
  | abandon g index => exact .of_pc rfl rfl
  | releaseMap g => exact .of_pc rfl rfl
  | dropExport g => exact .of_pc rfl rfl
  | flow pc outcome released hf =>
      exact ⟨.inl rfl, .inl rfl, .inl rfl, fun call howes => .inl (hf.owes hfault howes)⟩
  | latest p after hpc =>
      exact ⟨.inr ⟨rfl, hi⟩, .inl rfl, .inl rfl, fun call howes => (hpc ▸ howes).elim⟩
  | epoch value after hpc =>
      exact ⟨.inl rfl, .inr ⟨rfl, hi⟩, .inl rfl, fun call howes => (hpc ▸ howes).elim⟩
  | terminate after hpc =>
      exact ⟨.inl rfl, .inl rfl, .inr ⟨rfl, hi⟩, fun call howes => (hpc ▸ howes).elim⟩
  | page c j todo after hpc =>
      refine ⟨.inl rfl, .inl rfl, .inl rfl, fun call howes => ?_⟩
      rw [hpc] at howes
      obtain ⟨rfl, hmem⟩ := howes
      rcases List.mem_cons.mp hmem with rfl | hmem
      · right
        intro inc' hi'
        simp only [goto_incarnations, callPage, onPage, Function.update_self,
          Option.map_eq_some_iff] at hi'
        obtain ⟨inc, -, rfl⟩ := hi'
        exact List.mem_cons_self
      · exact .inl ⟨rfl, hmem⟩
  | close c j hpc =>
      obtain ⟨e, heq⟩ | ⟨book', -, -, -, -, heq⟩ := hl.close_spec j <;>
        exact idle (by rw [heq]; rfl) hpc fun _ h0 => by cases h0.2
  | collect j todo goal hd =>
      obtain ⟨hj, hrem, c, hpc⟩ := hl.drained hd
      obtain ⟨book', -, -, -, -, heq⟩ := hl.collect_spec hj hrem todo goal
      exact idle (by rw [heq]; rfl) hpc fun _ => id
  | reclaim index goal r hpc hget =>
      obtain ⟨_, _, _, _, _, _, _, heq⟩ := hl.reclaim_spec (by rw [hpc]; rfl) hget goal
      exact idle (by rw [heq]) hpc fun _ => id
  | ready index goal r hpc hget =>
      obtain ⟨_, _, _, _, _, _, _, heq⟩ := (hl.ready r.generation).reclaim_spec
        (by rw [onMap_producer, hpc]; rfl) hget goal
      exact idle (by rw [heq]; rfl) hpc fun _ => id
  | attach e holding remote hpc =>
      obtain ⟨o, heq⟩ | ⟨book', o, -, -, -, -, heq⟩ | ⟨book', g, r, -, -, -, -, -, -, -, heq⟩ :=
        hl.attach_spec (by rw [hpc]; rfl) e holding remote
      · exact idle (by rw [heq]; rfl) hpc fun _ => id
      · exact idle (by rw [heq]; rfl) hpc fun _ => id
      · exact idle (by rw [heq]) hpc fun _ => id
  | advance e hpc =>
      obtain ⟨o, heq⟩ | ⟨book', o, -, -, -, -, -, -, heq⟩ |
        ⟨book', layout, n, -, -, -, -, -, -, -, heq⟩ := hl.advance_spec e
      · exact idle (by rw [heq]; rfl) hpc fun _ => id
      · exact idle (by rw [heq]; rfl) hpc fun _ => id
      · exact idle (by rw [heq]; rfl) hpc fun _ => id
  | begin payloadCapacity externalBytes hpc =>
      obtain ⟨o, heq⟩ | ⟨layout, book', g, -, -, -, -, -, -, -, -, -, -, -, heq⟩ :=
        hl.begin_spec (by rw [hpc]; rfl) payloadCapacity externalBytes <;>
          exact idle (by rw [heq]; rfl) hpc fun _ => id
  | ring p after hpc => exact .of_idle rfl rfl rfl hpc fun _ => id
  | unconfigure layout hpc => exact .of_idle rfl rfl rfl hpc fun _ => id
  | firstCursor layout hpc => exact .of_idle rfl rfl rfl hpc fun _ => id
  | configure g hpc => exact .of_idle rfl rfl rfl hpc fun _ => id
  | commitCall g index descriptor hpc => exact idle rfl hpc fun _ => id
  | offerCall j hpc => exact idle rfl hpc fun _ => id
  | registerCall j hpc => exact idle rfl hpc fun _ => id
  | observe j todo goal inc hpc => exact idle rfl hpc fun _ => id
  | observed j todo goal released hpc => exact idle rfl hpc fun _ => id
  | remove j todo goal inc hpc => exact idle rfl hpc fun _ => id
  | unready index goal r hpc => exact idle rfl hpc fun _ => id
  | retire w off generation hpc => exact idle rfl hpc fun _ => id
  | reserve index hpc => exact idle rfl hpc fun _ => id
  | stage off descriptor bytes hostTimeNs hpc => exact idle rfl hpc fun _ => id
  | copy index descriptor bytes hostTimeNs hpc => exact idle rfl hpc fun _ => id
  | describe p after hpc => exact idle rfl hpc fun _ => id
  | store p after hpc => exact idle rfl hpc fun _ => id
  | release g index outcome hpc => exact idle rfl hpc fun _ => id
  | unpublish layout index state hpc => exact idle rfl hpc fun _ => id
  | register j inc hpc => exact idle rfl hpc fun _ => id
  | retry j inc outcome hpc => exact idle rfl hpc fun _ => id
  | exported g hpc => exact idle rfl hpc fun _ => id
  | dropObserver j todo inc hpc => exact idle rfl hpc fun _ => id

/-! ### The invariant -/

/-- **Every wake that the step tries succeeds.** -/
def delivers (s : Arena) : Label → Bool
  | .incarnation i l =>
      ((s.incarnations i).bind fun inc => inc.runs l).all fun run =>
        run.1 != .wake || run.2.delivers
  | _ => true

lemma delivers_wake {l : IncLabel} (h : s.delivers (.incarnation i l) = true) {inc : Incarnation}
    (hi : s.incarnations i = some inc) {op : PageOp} {e : Env}
    (hrun : inc.runs l = some (op, e)) : op = .wake → e.delivers = true := by
  rintro rfl
  rw [delivers, hi, Option.bind_some, hrun] at h
  simpa using h

/-- **The waiters are watched**: no wake has failed, and what each waiter of a live process has
read is current, or it is going to be woken. -/
structure Waking (s : Arena) : Prop where
  sound : ∀ i inc, s.incarnations i = some inc →
    inc.hostFault = false ∧ ¬ inc.Queued .inactive
  watched : ∀ i inc w, s.incarnations i = some inc → inc.exited = false →
    inc.waiter = some w → Watched s.shared s.producer.pc i inc w

/-- The incarnation of a waiter is tracked. -/
lemma Reachable.tracked_of_waiter (h : Reachable s) {inc : Incarnation}
    (hi : s.incarnations i = some inc) (hlive : inc.exited = false) (hw : inc.waiter.isSome) :
    i ∈ s.producer.claims := by
  by_contra hleft
  obtain ⟨hb, hl⟩ := h.lifetime i inc hi
  have hheld : inc.lifetimeHeld = true := by
    rw [Incarnation.lifetimeHeld, hb.waiter hw, Bool.true_or, Bool.true_or]
  obtain ⟨-, -, -, -, hquiescent, -⟩ := hl.of_held hheld
  have hseen := hquiescent (h.tracking.left i inc hi hleft 0).quiescent
  cases hlive.symm.trans ((h.handoffs hi).exited_of_seen hseen)

end Arena

namespace Incarnation

variable {sh : Shared} {inc inc' : Incarnation} {op : PageOp} {e : Env} {l : IncLabel}

/-- What a label runs was left to run. -/
lemma queued_of_runs (h : inc.runs l = some (op, e)) : inc.Queued op := by
  cases l with
  | thread t e' =>
      rw [runs] at h
      split at h
      · rename_i q rest role ht
        cases h
        refine .inl (List.mem_flatten.mpr ⟨_, List.mem_map_of_mem (List.mem_of_getElem? ht), ?_⟩)
        exact List.mem_cons_self
      · cases h
  | retire e' =>
      rw [runs] at h
      split at h
      · rename_i q rest htodo
        cases h
        exact .inr (.inl (by rw [htodo]; exact List.mem_cons_self))
      · cases h
  | observe e' =>
      rw [runs] at h
      split at h
      · rename_i q rest htodo
        cases h
        exact .inr (.inr (.inl (by rw [htodo]; exact List.mem_cons_self)))
      · cases h
  | host e' =>
      rw [runs] at h
      split at h
      · rename_i q rest htodo
        cases h
        exact .inr (.inr (.inr (by rw [htodo]; exact List.mem_cons_self)))
      · cases h
  | _ => cases h

/-- A lost peer is noted only behind a wake that has failed. -/
lemma not_inactive_of_delivers (hok : op = .wake → e.delivers = true) :
    .inactive ∉ (op.exec e inc).2 := by
  cases op with
  | wake =>
      have he := hok rfl
      simp only [Env.delivers, Bool.and_eq_true, Bool.not_eq_true'] at he
      rw [PageOp.exec, he.1, he.2, if_neg Bool.false_ne_true, if_neg Bool.false_ne_true]
      split_ifs <;> simp
  | epoch | close | interest =>
      simp only [PageOp.exec]
      split_ifs <;> simp
  | inactive | quiesce => simp [PageOp.exec]

/-- **No wake of this incarnation has failed**, after a step in which none does. -/
lemma Noticed.sound (h : Noticed sh inc l inc')
    (hok : ∀ op e, inc.runs l = some (op, e) → op = .wake → e.delivers = true)
    (hs : inc.hostFault = false ∧ ¬ inc.Queued .inactive) :
    inc'.hostFault = false ∧ ¬ inc'.Queued .inactive := by
  cases h with
  | performs op e hrun hp =>
      have hdelivers := hok op e hrun
      constructor
      · by_contra h0
        rcases hp.hostFault (by simpa using h0) with hfault | ⟨hwake, -, hfail⟩
        · cases hs.1.symm.trans hfault
        · have he := hdelivers hwake
          rw [Env.delivers, hfail, Bool.not_true, Bool.and_false] at he
          cases he
      · intro hq
        rcases hp.inactive hq with hq | hq
        · exact hs.2 hq
        · exact not_inactive_of_delivers hdelivers hq
  | waiter w e hw hx hstep =>
      obtain ⟨waiter, interest, bytes, rfl⟩ := waiterStep_shape hstep
      exact hs
  | arms observed interest heq =>
      subst heq
      exact hs
  | quiet hquiet =>
      constructor
      · by_contra h0
        cases hs.1.symm.trans (hquiet.hostFault (by simpa using h0))
      · exact fun hq => hs.2 (hquiet.inactive hq)

/-- **A step of the incarnation keeps its waiter watched.** -/
lemma Noticed.watched (h : Noticed sh inc l inc') {pc : Pc} {i : ℕ}
    (hok : ∀ op e, inc.runs l = some (op, e) → op = .wake → e.delivers = true)
    (hsound : ¬ inc.Queued .inactive)
    (hwatched : ∀ w, inc.exited = false → inc.waiter = some w → Watched sh pc i inc w) :
    ∀ w, inc'.exited = false → inc'.waiter = some w → Watched sh pc i inc' w := by
  intro w hlive hw
  cases h with
  | performs op e hrun hp =>
      rw [hp.exited] at hlive
      rw [hp.waiter] at hw
      refine (hwatched w hlive hw).performs hp (hok op e hrun) ?_
      rintro rfl
      exact hsound (queued_of_runs hrun)
  | waiter w₀ e hw₀ hx hstep => exact (hwatched w₀ hx hw₀).waiter hstep w hw
  | arms observed interest heq =>
      subst heq
      cases hw
      exact .of_round rfl rfl
  | quiet hquiet =>
      rw [hquiet.waiter] at hw
      exact (hwatched w (hquiet.exited hlive) hw).unnoticed hquiet

end Incarnation

namespace Arena

variable {s s' : Arena} {i : ℕ}

/-- A step of an incarnation. -/
lemma Waking.own (h : Waking s) {l : IncLabel} (hok : s.delivers (.incarnation i l) = true)
    (hs : s.step (.incarnation i l) = some s') : Waking s' := by
  simp only [step, Option.bind_eq_bind, Option.bind_eq_some_iff] at hs
  obtain ⟨inc, hi, inc', hstep, hs⟩ := hs
  cases hs
  have hnoticed := Incarnation.step_noticed hstep
  have hdelivers : ∀ op e, inc.runs l = some (op, e) → op = .wake → e.delivers = true :=
    fun _ _ => delivers_wake hok hi
  have hsound := h.sound i inc hi
  constructor
  case sound =>
      intro j jnc hj
      by_cases hji : j = i
      · subst hji
        simp only [Function.update_self, Option.some.injEq] at hj
        subst hj
        exact hnoticed.sound hdelivers hsound
      · simp only [Function.update_of_ne hji] at hj
        exact h.sound j jnc hj
  case watched =>
      intro j jnc w hj hlive hw
      by_cases hji : j = i
      · subst hji
        simp only [Function.update_self, Option.some.injEq] at hj
        subst hj
        exact hnoticed.watched hdelivers hsound.2 (fun w₀ => h.watched j inc w₀ hi) w hlive hw
      · simp only [Function.update_of_ne hji] at hj
        exact h.watched j jnc w hj hlive hw

/-- **Every step keeps the waiters watched**, if the wake that it tries succeeds. -/
theorem Waking.step (h : Waking s) (hr : Reachable s) {l : Label} (hok : s.delivers l = true)
    (hs : s.step l = some s') : Waking s' := by
  by_cases hown : ∃ i m, l = .incarnation i m
  · obtain ⟨i, m, rfl⟩ := hown
    exact h.own hok hs
  have hne : ∀ i m, l ≠ .incarnation i m := fun i m h0 => hown ⟨i, m, h0⟩
  have hattends := attends_of_step hr.ledger hne hs
  have hacts := acts_of_step hs
  constructor
  case sound =>
      intro j jnc' hj'
      cases hj : s.incarnations j with
      | none =>
          obtain ⟨frames, remote, g, rfl⟩ := hacts.new_of_none hr.ledger hj hj'
          exact ⟨rfl, by simp [Incarnation.Queued, Incarnation.work, Incarnation.new]⟩
      | some jnc =>
          obtain ⟨hfault, hqueued⟩ := h.sound j jnc hj
          have hquiet := (hattends j jnc jnc' hj hj').unnoticed
          refine ⟨?_, fun hq => hqueued (hquiet.inactive hq)⟩
          by_contra h0
          cases hfault.symm.trans (hquiet.hostFault (by simpa using h0))
  case watched =>
      intro j jnc' w hj' hlive hw
      cases hj : s.incarnations j with
      | none =>
          obtain ⟨frames, remote, g, rfl⟩ := hacts.new_of_none hr.ledger hj hj'
          cases hw
      | some jnc =>
          have hquiet := (hattends j jnc jnc' hj hj').unnoticed
          have hlive₀ := hquiet.exited hlive
          have hw₀ := hquiet.waiter.symm.trans hw
          have htracked := hr.tracked_of_waiter hj hlive₀ (by rw [hw₀]; rfl)
          have hsteers := hacts.steers hr.ledger htracked fun k knc hk => (h.sound k knc hk).1
          refine ((h.watched j jnc w hj hlive₀ hw₀).unnoticed hquiet).steered hsteers.latest
            hsteers.epoch hsteers.terminal fun call howes => ?_
          exact (hsteers.owes call howes).imp_right fun hbegun => hbegun jnc' hj'

/-- **A writer is between its store and its wake**: somebody has still to load the interest of
this page or to wake its channel, the producer has still to come to it with an event, or to
close it behind `TERMINAL`. -/
def Notifying (s : Arena) (i : ℕ) (inc : Incarnation) : Prop :=
  inc.Queued .wake ∨
    (∃ event, inc.Queued (.interest event) ∨ s.producer.pc.Owes i (.signal event)) ∨
    s.shared.control.terminal ≠ 0 ∧ inc.Closing s.producer.pc i

/-- A signal is a byte in the channel or a writer on its way. -/
lemma notifying_of_signalled {inc : Incarnation} {event : Event}
    (h : inc.Signalled s.producer.pc i event) : inc.wakeBytes ≠ 0 ∨ s.Notifying i inc := by
  rcases h with hbytes | hwake | hinterest | howes
  · exact .inl hbytes
  · exact .inr (.inl hwake)
  · exact .inr (.inr (.inl ⟨event, .inl hinterest⟩))
  · exact .inr (.inr (.inl ⟨event, .inr howes⟩))

end Arena

/-- **A waiter that sleeps behind a change is going to be woken.** -/
lemma Watched.woken {s : Arena} {i : ℕ} {inc : Incarnation} {w : Waiter}
    (h : Watched s.shared s.producer.pc i inc w) (hasleep : w.pc = .asleep)
    (hchanged : w.interest.changed w.observed (inc.events s.shared) = true) :
    inc.wakeBytes ≠ 0 ∨ s.Notifying i inc := by
  by_contra hnot
  have hquiet : ∀ event, ¬ inc.Signalled s.producer.pc i event :=
    fun event hs => hnot (Arena.notifying_of_signalled hs)
  have hround : w.pc.round = 5 := by rw [hasleep]; rfl
  have hsame := h.asleep hasleep
  have hopen : w.read.closed = false := by
    rw [WaitInterest.changed] at hsame
    simp only [Bool.or_eq_false_iff] at hsame
    exact hsame.1.1.1
  have hactive := (h.active (.inr ⟨hround.ge, hopen⟩)).resolve_right (hquiet .closed)
  have hterminal : s.shared.control.terminal = 0 := by
    by_contra h0
    rcases h.terminal hround.ge hopen with hterminal | hclosed | hclosing
    · exact h0 hterminal
    · exact hactive hclosed
    · exact hnot (.inr (.inr (.inr ⟨h0, hclosing⟩)))
  -- what it has read is what it would read now
  have hepoch := (h.reconfiguration (by omega)).resolve_right (hquiet .reconfiguration)
  have hdata : w.interest.contains .data = true →
      w.read.dataCursor = s.shared.control.latest := fun hc =>
    (h.data (by omega) hc).resolve_right (hquiet .data)
  have hcapacity : w.interest.contains .capacity = true →
      w.read.capacityEpoch = inc.page.capacityEpoch := fun hc =>
    (h.capacity (by omega) hc).resolve_right (hquiet .capacity)
  have hclosed : (inc.events s.shared).closed = false := by
    simp [Incarnation.events, hactive, hterminal]
  have heq : w.interest.changed w.observed (inc.events s.shared) =
      w.interest.changed w.observed w.read := by
    rw [WaitInterest.changed, WaitInterest.changed, hclosed, hopen]
    simp only [Incarnation.events, hepoch]
    cases hd : w.interest.contains .data <;> cases hc : w.interest.contains .capacity
    · simp
    · simp [hcapacity hc]
    · simp [hdata hd]
    · simp [hdata hd, hcapacity hc]
  rw [heq, hsame] at hchanged
  cases hchanged

namespace Arena

variable {s s₀ : Arena} {i : ℕ}

/-- **No wakeup is lost**: in every run in which no wake fails, a waiter of a live process that
sleeps although its events have changed has a byte in its channel, or a writer is between its
store and its wake. -/
theorem wakeup_never_lost {page : ℕ} {config : ArenaConfig} {externalBytes : ℕ} {native : Bool}
    (h₀ : create page config externalBytes native = .ok s₀)
    (hr : Reaches step (fun s l => s.delivers l = true) s₀ s) {inc : Incarnation}
    (hi : s.incarnations i = some inc) (hlive : inc.exited = false) {w : Waiter}
    (hw : inc.waiter = some w) (hasleep : w.pc = .asleep)
    (hchanged : w.interest.changed w.observed (inc.events s.shared) = true) :
    inc.wakeBytes ≠ 0 ∨ s.Notifying i inc := by
  have hwaking : Waking s := by
    refine hr.invariant_with (P := Waking) (Q := Reachable)
      (fun a ha => ⟨page, config, externalBytes, native, s₀, h₀, ha.always⟩) ?_
      fun a l b ha hp hok hs => hp.step ha hok hs
    rw [create] at h₀
    obtain ⟨x, -, h₀⟩ := of_bind_ok h₀
    cases h₀
    exact ⟨by rintro i inc ⟨⟩, by rintro i inc w ⟨⟩⟩
  exact (hwaking.watched i inc w hi hlive hw).woken hasleep hchanged

/-- A consumer sleeps; then a frame is published, up to the store of `LATEST`. -/
def sleeping : List Label :=
  [Label.call (.attach 1 false)] ++ pump 8 ++ [on (.fromGrant {}), on (.thread 0 {})] ++
  [on (.wait {} .data)] ++ List.replicate 8 (on (.waiter {})) ++
  [Label.call (.publish (.cpu {} [7]))] ++ pump 19

theorem wakeup_never_lost_sleeping : ∃ s₀ s inc w,
    create 4096 smallConfig 0 false = .ok s₀ ∧ s = playIn step delivers s₀ sleeping ∧
      s.incarnations 1 = some inc ∧ inc.waiter = some w ∧ w.pc = .asleep ∧ inc.wakeBytes = 0 ∧
      w.interest.changed w.observed (inc.events s.shared) = true ∧ s.Notifying 1 inc := by
  have hrun : ((create 4096 smallConfig 0 false).toOption.map fun s₀ =>
      playIn step delivers s₀ sleeping).bind (fun s => (s.incarnations 1).bind fun inc =>
        inc.waiter.map fun w => (inc.exited, w.pc, inc.wakeBytes,
          w.interest.changed w.observed (inc.events s.shared))) =
      some (false, .asleep, 0, true) := by decide +kernel
  obtain ⟨s, hs, hrun⟩ := Option.bind_eq_some_iff.mp hrun
  obtain ⟨inc, hi, hrun⟩ := Option.bind_eq_some_iff.mp hrun
  obtain ⟨w, hw, hrun⟩ := Option.map_eq_some_iff.mp hrun
  simp only [Prod.mk.injEq] at hrun
  obtain ⟨hlive, hasleep, hbytes, hchanged⟩ := hrun
  cases h₀ : create 4096 smallConfig 0 false with
  | error e =>
      rw [h₀] at hs
      cases hs
  | ok s₀ =>
      rw [h₀] at hs
      have hs : playIn step delivers s₀ sleeping = s := Option.some.inj hs
      subst hs
      refine ⟨s₀, _, inc, w, rfl, rfl, hi, hw, hasleep, hbytes, hchanged, ?_⟩
      have hwoken := wakeup_never_lost h₀ (.of_playIn (fun _ _ h => h) s₀ sleeping) hi hlive hw
        hasleep hchanged
      exact hwoken.resolve_left (fun hne => hne hbytes)

end Arena

end Jackstay.Acquisition
