import Jackstay.Acquisition.Arena.Lifetime
import Jackstay.Acquisition.Arena.Publication

/-!
Words that never come back.

* `Incarnation.Advances`: `ACTIVE` stays clear and `QUIESCENT` stays set, in every move, and
  `CAPACITY_EPOCH` goes up below its last value.
* `Acts.terminal`, `Acts.reconfigurationEpoch_le`, `Acts.nextAllocation_le`: `TERMINAL` stays
  set, and the epochs of reconfiguration and the generations of allocations only go up.
* `Incarnation.no_claim`: a quiescent incarnation makes no claims.
-/

namespace Jackstay.Acquisition

/-- **What never comes back on a claim page.** -/
structure Incarnation.Advances (inc inc' : Incarnation) : Prop where
  active : inc.page.active = 0 → inc'.page.active = 0
  quiescent : inc.page.quiescent ≠ 0 → inc'.page.quiescent ≠ 0
  capacity : inc.page.capacityEpoch + 1 < 2 ^ 64 →
    inc.page.capacityEpoch ≤ inc'.page.capacityEpoch

namespace Incarnation

variable {sh : Shared} {inc inc' : Incarnation}

lemma Advances.of_page (h : inc'.page.active = inc.page.active)
    (h' : inc'.page.quiescent = inc.page.quiescent)
    (h'' : inc'.page.capacityEpoch = inc.page.capacityEpoch) : Advances inc inc' :=
  ⟨fun h0 => h.trans h0, fun h0 => h'.symm ▸ h0, fun _ => h''.ge⟩

lemma PageOp.advances (e : Env) (inc : Incarnation) (op : PageOp) :
    Advances inc (op.exec e inc).1 := by
  cases op with
  | epoch =>
      refine ⟨id, id, fun h0 => ?_⟩
      show inc.page.capacityEpoch ≤ (inc.page.capacityEpoch + 1) % 2 ^ 64
      rw [Nat.mod_eq_of_lt h0]
      omega
  | close => exact ⟨fun _ => rfl, id, fun _ => le_rfl⟩
  | interest event => exact .of_page rfl rfl rfl
  | wake =>
      rw [PageOp.exec]
      split_ifs <;> exact .of_page rfl rfl rfl
  | inactive => exact ⟨fun _ => rfl, id, fun _ => le_rfl⟩
  | quiesce => exact ⟨id, fun _ => Nat.one_ne_zero, fun _ => le_rfl⟩

lemma OwnerOp.advances (inc : Incarnation) (op : OwnerOp) : Advances inc (op.exec inc).1 := by
  obtain ⟨ms, m, g, hshape⟩ := op.exec_shape inc
  rw [hshape]
  exact .of_page rfl rfl rfl

lemma HostOp.advances (e : Env) (inc : Incarnation) (op : HostOp) :
    Advances inc (op.exec e inc).1 := by
  cases op with
  | page op =>
      obtain ⟨hactive, hquiescent, hcapacity⟩ := PageOp.advances e inc op
      exact ⟨hactive, hquiescent, hcapacity⟩
  | owner op => exact OwnerOp.advances inc op
  | offerActive generation =>
      cases generation <;> simp only [HostOp.exec] <;> split_ifs <;> exact .of_page rfl rfl rfl
  | offerOffered g =>
      simp only [HostOp.exec]
      split_ifs <;> exact .of_page rfl rfl rfl
  | offerSlot g m =>
      simp only [HostOp.exec]
      split_ifs <;> exact .of_page rfl rfl rfl
  | offerStore g m => exact .of_page rfl rfl rfl
  | offerRecheck m =>
      simp only [HostOp.exec]
      split_ifs <;> exact .of_page rfl rfl rfl
  | registerActive => exact .of_page rfl rfl rfl

lemma ThreadOp.Acts.advances {op : ThreadOp} {next : List ThreadOp}
    (h : op.Acts sh inc inc' next) : Advances inc inc' := by
  cases h with
  | page op e => exact PageOp.advances e inc op
  | owner op => exact OwnerOp.advances inc op
  | _ => exact .of_page rfl rfl rfl

lemma SectionOp.advances (e : Env) (inc : Incarnation) (op : SectionOp) :
    Advances inc (op.exec e inc).1 := by
  cases op with
  | page op => exact PageOp.advances e inc op
  | drop k op =>
      have hop := OwnerOp.advances inc op
      rw [SectionOp.exec]
      split
      · rename_i heq
        rwa [heq] at hop
      · rename_i heq
        rwa [heq] at hop
  | retire k =>
      rw [SectionOp.exec]
      by_cases hk : inc.frames ≤ k
      · rw [if_pos hk]
        exact .of_page rfl rfl rfl
      rw [if_neg hk]
      split
      · exact .of_page rfl rfl rfl
      · split_ifs <;> exact .of_page rfl rfl rfl
  | _ => exact .of_page rfl rfl rfl

lemma ObserveOp.advances (native : Bool) (e : Env) (inc : Incarnation) (op : ObserveOp) :
    Advances inc (op.exec native e inc).1 := by
  cases op with
  | page op => exact PageOp.advances e inc op
  | process => simp only [ObserveOp.exec]; split_ifs <;> exact .of_page rfl rfl rfl
  | exitPending k => simp only [ObserveOp.exec]; split_ifs <;> exact .of_page rfl rfl rfl
  | deadline => simp only [ObserveOp.exec]; split_ifs <;> exact .of_page rfl rfl rfl
  | loadPending k => simp only [ObserveOp.exec]; split_ifs <;> exact .of_page rfl rfl rfl
  | loadValue k t => simp only [ObserveOp.exec]; split_ifs <;> exact .of_page rfl rfl rfl
  | completed k t v => simp only [ObserveOp.exec]; split_ifs <;> exact .of_page rfl rfl rfl
  | register => simp only [ObserveOp.exec]; split_ifs <;> exact .of_page rfl rfl rfl
  | _ => exact .of_page rfl rfl rfl

lemma Acts.advances (h : inc.Acts sh inc') : Advances inc inc' := by
  cases h with
  | call t _ hx hs =>
      obtain ⟨call, -, ⟨pc, -, rfl⟩ | ⟨o, -, rfl⟩ | ⟨c, idx, k, m, x, -, -, -, rfl⟩⟩ :=
        callStep_shape hs <;> exact .of_page rfl rfl rfl
  | use k u e _ hx hu hs => cases useActs_of_step hs <;> exact .of_page rfl rfl rfl
  | defer k t v e u m =>
      rw [handoff]
      split_ifs <;> exact .of_page rfl rfl rfl
  | waiter w e _ hx hw hs =>
      obtain ⟨waiter, interest, bytes, rfl⟩ := waiterStep_shape hs
      exact .of_page rfl rfl rfl
  | thread t e _ hs =>
      obtain ⟨op, rest, role, mid, next, -, -, hop, rfl⟩ := threadStep_acts hs
      obtain ⟨hactive, hquiescent, hcapacity⟩ := ThreadOp.Acts.advances hop
      exact ⟨hactive, hquiescent, hcapacity⟩
  | retire e _ hs =>
      obtain ⟨op, rest, htodo, -, rfl⟩ := retireStep_shape hs
      obtain ⟨hactive, hquiescent, hcapacity⟩ := SectionOp.advances e
        { inc with retirement := { inc.retirement with todo := rest } } op
      exact ⟨hactive, hquiescent, hcapacity⟩
  | observe e _ hs =>
      obtain ⟨op, rest, htodo, rfl⟩ := observeStep_shape hs
      obtain ⟨hactive, hquiescent, hcapacity⟩ := ObserveOp.advances sh.native e inc op
      exact ⟨hactive, hquiescent, hcapacity⟩
  | host e _ hs =>
      obtain ⟨op, rest, htodo, rfl⟩ := hostStep_shape hs
      obtain ⟨hactive, hquiescent, hcapacity⟩ := HostOp.advances e inc op
      exact ⟨hactive, hquiescent, hcapacity⟩
  | _ => exact .of_page rfl rfl rfl

/-- **`ACTIVE` stays clear and `QUIESCENT` stays set**, and `CAPACITY_EPOCH` goes up. -/
lemma Move.advances (h : inc.Move sh inc') : Advances inc inc' := by
  cases h with
  | act inc' ha => exact ha.advances
  | _ => exact .of_page rfl rfl rfl

/-- **A quiescent incarnation makes no claims.** Its process has ended, its grant was
dropped, or the last owner of the lifetime has closed it. -/
lemma no_claim (hh : Handoffs sh.native inc) (hb : Borrowed inc) (hl : Lifetime inc)
    (hq : inc.page.quiescent ≠ 0) (hm : inc.Move sh inc') {k : ℕ} (hk : inc.uses k = none) :
    inc'.uses k = none := by
  have hidle : inc.exited = true ∨ inc.consumer = none := by
    rcases hl.quiescent hq with hseen | ⟨hunborn, -⟩ | ⟨hclosed, -⟩
    · exact Or.inl (hh.exited_of_seen hseen)
    · exact Or.inr hunborn.consumer
    · right
      have hone : inc.closers = 1 := by
        have hle := hl.closers_le
        have hge : 1 ≤ inc.closers := by simp [Incarnation.closers, hclosed]
        omega
      exact (lifetimeHeld_eq_false.mp (hl.ended hone)).1
  rcases hidle with hx | hc
  · have hu := hm.uses hh k
    rw [hk] at hu
    generalize inc'.uses k = x at hu ⊢
    cases hu with
    | same => rfl
    | claimed call cursor index m mapping hx' => rw [hx] at hx'; cases hx'
  · exact (hm.unclaimed hb hh hc).1 k hk

end Incarnation

/-! ### Control words and generations -/

namespace Arena

variable {s s' : Arena}

/-- `TERMINAL` stays set. -/
lemma Acts.terminal (hl : Ledger s) (hs : s.Acts s') (h : s.shared.control.terminal ≠ 0) :
    s'.shared.control.terminal ≠ 0 := by
  have books : s.Books s' → s'.shared.control.terminal ≠ 0 := by
    intro hb
    rw [hb.control]
    exact h
  cases hs with
  | terminate after hpc => exact Nat.one_ne_zero
  | collect i todo goal hd => exact books (hl.collect_books hd)
  | reclaim index goal r hpc hr => exact books (hl.reclaim_books (by rw [hpc]; rfl) hr goal)
  | ready index goal r hpc hr =>
      rw [(hl.ready_books (by rw [hpc]; rfl) hr goal).control]
      exact h
  | attach e holding remote hpc => exact books (hl.attach_books (by rw [hpc]; rfl) e holding remote)
  | advance e hpc => exact books (hl.advance_books (by rw [hpc]; rfl) e)
  | begin payloadCapacity externalBytes hpc => exact books (hl.begin_books (by rw [hpc]; rfl) _ _)
  | close call i hpc => exact books (hl.close_books i)
  | _ => exact h

/-- `RECONFIGURATION_EPOCH` never goes back. -/
lemma Acts.reconfigurationEpoch_le (hl : Ledger s) (hs : s.Acts s') :
    s.shared.control.reconfigurationEpoch ≤ s'.shared.control.reconfigurationEpoch := by
  have books : s.Books s' →
      s.shared.control.reconfigurationEpoch ≤ s'.shared.control.reconfigurationEpoch := by
    intro hb
    rw [hb.control]
  cases hs with
  | collect i todo goal hd => exact books (hl.collect_books hd)
  | reclaim index goal r hpc hr => exact books (hl.reclaim_books (by rw [hpc]; rfl) hr goal)
  | ready index goal r hpc hr =>
      rw [(hl.ready_books (by rw [hpc]; rfl) hr goal).control]
      exact le_rfl
  | attach e holding remote hpc => exact books (hl.attach_books (by rw [hpc]; rfl) e holding remote)
  | advance e hpc => exact books (hl.advance_books (by rw [hpc]; rfl) e)
  | begin payloadCapacity externalBytes hpc => exact books (hl.begin_books (by rw [hpc]; rfl) _ _)
  | close call i hpc => exact books (hl.close_books i)
  | epoch value after hpc hlt heq =>
      show s.shared.control.reconfigurationEpoch ≤ value + 1
      omega
  | _ => exact le_rfl

/-- The identifiers of allocations go up. -/
lemma Acts.nextAllocation_le (hl : Ledger s) (hs : s.Acts s') :
    s.producer.admission.nextAllocation ≤ s'.producer.admission.nextAllocation := by
  cases hs with
  | collect i todo goal hd =>
      obtain ⟨hi, hrem, -⟩ := hl.drained hd
      obtain ⟨book', -, hsame, -, -, heq⟩ := hl.collect_spec hi hrem todo goal
      rw [heq]
      exact hsame.nextAllocation.ge
  | reclaim index goal r hpc hr =>
      obtain ⟨book', -, -, -, hnext, -, -, heq⟩ := hl.reclaim_spec (by rw [hpc]; rfl) hr goal
      rw [heq]
      exact hnext.ge
  | ready index goal r hpc hr =>
      obtain ⟨book', -, -, -, hnext, -, -, heq⟩ :=
        (hl.ready r.generation).reclaim_spec (by rw [Arena.onMap_producer, hpc]; rfl) hr goal
      rw [heq]
      exact hnext.ge
  | attach e holding remote hpc =>
      obtain ⟨o, heq⟩ | ⟨book', o, -, hsame, -, -, heq⟩ | ⟨book', g, r, -, hsame, -, -, -, -, -, heq⟩ :=
        hl.attach_spec (by rw [hpc]; rfl) e holding remote
      · rw [heq]
        exact le_rfl
      · rw [heq]
        exact hsame.nextAllocation.ge
      · rw [heq]
        exact hsame.nextAllocation.ge
  | advance e hpc =>
      obtain ⟨o, heq⟩ | ⟨book', o, -, -, -, hnext, -, -, heq⟩ |
        ⟨book', layout, n, -, -, -, -, hnext, -, -, heq⟩ := hl.advance_spec e
      · rw [heq]
        exact le_rfl
      · rw [heq]
        exact (Nat.le_succ _).trans hnext.ge
      · rw [heq]
        exact (Nat.le_succ _).trans hnext.ge
  | begin payloadCapacity externalBytes hpc =>
      obtain ⟨o, heq⟩ | ⟨layout, book', g, -, -, -, -, -, -, -, -, hnext, -, -, heq⟩ :=
        hl.begin_spec (by rw [hpc]; rfl) payloadCapacity externalBytes
      · rw [heq]
        exact le_rfl
      · rw [heq]
        exact hnext.ge
  | close call i hpc =>
      obtain ⟨e, heq⟩ | ⟨book', -, hsame, -, -, heq⟩ := hl.close_spec i
      · rw [heq]
        exact le_rfl
      · rw [heq]
        exact hsame.nextAllocation.ge
  | _ => exact le_rfl

end Arena

end Jackstay.Acquisition
