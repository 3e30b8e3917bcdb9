import Jackstay.Library.Traces
import Jackstay.Native.LeaseBook

/-!
`native/lease.rs`: the book of the leases, over whole histories of calls.

A history is the list of the calls that were made, each with its answer. What has become of a
lease is read off the history, without the book: it was acquired, its release was deferred to
a value of a timeline, it is resolved. The book is to agree with its history, whatever calls
were made and in whatever order. The order of the leases that one call reports is that of a
hash map, and nothing is said about it.

* `Resolved`: a lease was released `Now`, or its timeline has reached its value since.
* `Tracked`: what the book and its history have in common; `Tracked.call` keeps it.
* `leases_tracked`: the book answers for the slots as its history has it, every lease is
  reported once, no id is given out twice, and a call that fails leaves the book as it was.
-/

namespace Jackstay.Native

open Traces

/-- A call of the book, with its arguments. -/
inductive BookCall where
  | acquire (identity : NativeLeaseIdentity)
  | registerReleaseSync
  | registerReleaseSyncId (releaseSyncId : Fin (2 ^ 64))
  | release (leaseId : ℕ) (how : NativeLeaseRelease)
  | completeReleaseSync (releaseSyncId reached : ℕ)
  deriving DecidableEq, Repr

/-- What a call answers. -/
inductive BookAnswer where
  | leaseId (leaseId : ℕ)
  | releaseSyncId (releaseSyncId : ℕ)
  | registered
  | released (lease : ReleasedNativeLease)
  | completed (leases : List ReleasedNativeLease)
  | failed (error : NativeLeaseError)
  deriving DecidableEq, Repr

/-- The answer of a call that may fail. -/
def answered {α : Type} (answer : α → BookAnswer) :
    NativeLeaseBook × Except NativeLeaseError α → NativeLeaseBook × BookAnswer
  | (b, .ok a) => (b, answer a)
  | (b, .error e) => (b, .failed e)

/-- **One call of the book.** -/
def NativeLeaseBook.call (b : NativeLeaseBook) : BookCall → NativeLeaseBook × BookAnswer
  | .acquire identity => answered .leaseId (b.acquire identity)
  | .registerReleaseSync => answered .releaseSyncId b.registerReleaseSync
  | .registerReleaseSyncId releaseSyncId =>
      answered (fun _ => .registered) (b.registerReleaseSyncId releaseSyncId)
  | .release leaseId how => answered .released (b.release leaseId how)
  | .completeReleaseSync releaseSyncId reached =>
      answered .completed (b.completeReleaseSync releaseSyncId reached)

/-! ### Histories -/

/-- The calls that were made, with their answers. -/
abbrev History := List (BookCall × BookAnswer)

/-- The lease that a call has acquired, with the frame it protects. -/
def acquiredBy : BookCall × BookAnswer → Option (ℕ × NativeLeaseIdentity)
  | (.acquire identity, .leaseId leaseId) => some (leaseId, identity)
  | _ => none

/-- The id that the book has made up for a timeline. -/
def generatedBy : BookCall × BookAnswer → Option ℕ
  | (.registerReleaseSync, .releaseSyncId releaseSyncId) => some releaseSyncId
  | _ => none

/-- The id of a timeline that came from elsewhere. -/
def assignedBy : BookCall × BookAnswer → Option ℕ
  | (.registerReleaseSyncId releaseSyncId, .registered) => some releaseSyncId
  | _ => none

/-- The leases that were acquired. -/
def acquired (tr : History) : List (ℕ × NativeLeaseIdentity) := tr.filterMap acquiredBy

/-- The ids of timelines that the book has made up. -/
def generated (tr : History) : List ℕ := tr.filterMap generatedBy

/-- The ids of timelines that came from elsewhere. -/
def assigned (tr : History) : List ℕ := tr.filterMap assignedBy

/-- The release of a lease was deferred to this value of this timeline. -/
def Deferred (tr : History) (leaseId releaseSyncId value : ℕ) : Prop :=
  ∃ lease, (.release leaseId (.timelineValue releaseSyncId value), .released lease) ∈ tr

/-- **A lease is resolved**: it was released `Now`, or its release was deferred to a value, and
the book was told since that the timeline has reached it. -/
def Resolved (tr : History) (leaseId : ℕ) : Prop :=
  (∃ lease, (.release leaseId .now, .released lease) ∈ tr) ∨
  ∃ pre post releaseSyncId value reached leases, tr = pre ++ post ∧
    Deferred pre leaseId releaseSyncId value ∧
    (.completeReleaseSync releaseSyncId reached, .completed leases) ∈ post ∧ value ≤ reached

/-- The leases that a call reports as resolved. -/
def reported : BookCall × BookAnswer → List ℕ
  | (.release _ .now, .released lease) => [lease.leaseId]
  | (.completeReleaseSync _ _, .completed leases) => leases.map (·.leaseId)
  | _ => []

/-- How often a lease was reported as resolved. -/
def reports (tr : History) (leaseId : ℕ) : ℕ := (tr.flatMap reported).count leaseId

section Appended

variable {tr : History} {x : BookCall × BookAnswer} {leaseId releaseSyncId value : ℕ}

lemma deferred_snoc : Deferred (tr ++ [x]) leaseId releaseSyncId value ↔
    Deferred tr leaseId releaseSyncId value ∨
    ∃ lease, x = (.release leaseId (.timelineValue releaseSyncId value), .released lease) := by
  simp only [Deferred, List.mem_append, List.mem_singleton, exists_or, eq_comm]

lemma Deferred.of_append {pre post : History} (h : Deferred pre leaseId releaseSyncId value) :
    Deferred (pre ++ post) leaseId releaseSyncId value := by
  obtain ⟨lease, hmem⟩ := h
  exact ⟨lease, List.mem_append_left _ hmem⟩

/-- What the last call can resolve. -/
lemma resolved_snoc : Resolved (tr ++ [x]) leaseId ↔
    Resolved tr leaseId ∨ (∃ lease, x = (.release leaseId .now, .released lease)) ∨
    ∃ releaseSyncId value reached leases, Deferred tr leaseId releaseSyncId value ∧
      x = (.completeReleaseSync releaseSyncId reached, .completed leases) ∧ value ≤ reached := by
  constructor
  · rintro (⟨lease, hmem⟩ | ⟨pre, post, sync, value, reached, leases, heq, hdefer, hmem, hle⟩)
    · rcases List.mem_append.mp hmem with hmem | hmem
      · exact Or.inl (Or.inl ⟨lease, hmem⟩)
      · exact Or.inr (Or.inl ⟨lease, (List.mem_singleton.mp hmem).symm⟩)
    · rcases List.eq_nil_or_concat post with rfl | ⟨rest, y, rfl⟩
      · cases hmem
      · rw [List.concat_eq_append, ← List.append_assoc] at heq
        obtain ⟨htr, hx⟩ := List.append_inj' heq rfl
        cases hx
        rw [List.concat_eq_append] at hmem
        rcases List.mem_append.mp hmem with hmem | hmem
        · exact Or.inl (Or.inr ⟨pre, rest, sync, value, reached, leases, htr, hdefer, hmem, hle⟩)
        · refine Or.inr (Or.inr ⟨sync, value, reached, leases, ?_,
            (List.mem_singleton.mp hmem).symm, hle⟩)
          rw [htr]
          exact hdefer.of_append
  · rintro ((⟨lease, hmem⟩ | ⟨pre, post, sync, value, reached, leases, rfl, hdefer, hmem, hle⟩) |
      ⟨lease, rfl⟩ | ⟨sync, value, reached, leases, hdefer, rfl, hle⟩)
    · exact Or.inl ⟨lease, List.mem_append_left _ hmem⟩
    · exact Or.inr ⟨pre, post ++ [x], sync, value, reached, leases, List.append_assoc _ _ _,
        hdefer, List.mem_append_left _ hmem, hle⟩
    · exact Or.inl ⟨lease, List.mem_append_right _ List.mem_cons_self⟩
    · exact Or.inr ⟨tr, _, sync, value, reached, leases, rfl, hdefer, List.mem_cons_self, hle⟩

lemma reports_snoc : reports (tr ++ [x]) leaseId =
    reports tr leaseId + (reported x).count leaseId := by
  rw [reports, reports, List.flatMap_append, List.count_append, List.flatMap_singleton]

end Appended

/-- A call that neither defers nor resolves a lease. -/
def Neutral : BookCall × BookAnswer → Bool
  | (.release _ _, .released _) => false
  | (.completeReleaseSync _ _, .completed _) => false
  | _ => true

section Neutral

variable {tr : History} {x : BookCall × BookAnswer} {leaseId releaseSyncId value : ℕ}

lemma Deferred.of_neutral (hx : Neutral x = true) :
    Deferred (tr ++ [x]) leaseId releaseSyncId value ↔
      Deferred tr leaseId releaseSyncId value := by
  rw [deferred_snoc]
  refine or_iff_left ?_
  rintro ⟨lease, rfl⟩
  cases hx

lemma Resolved.of_neutral (hx : Neutral x = true) :
    Resolved (tr ++ [x]) leaseId ↔ Resolved tr leaseId := by
  rw [resolved_snoc]
  refine or_iff_left ?_
  rintro (⟨lease, rfl⟩ | ⟨_, _, _, _, -, rfl, -⟩)
  · cases hx
  · cases hx

lemma reported_of_neutral (hx : Neutral x = true) : reported x = [] := by
  obtain ⟨call, answer⟩ := x
  cases call with
  | release _ how =>
      cases answer with
      | released lease => cases hx
      | _ => cases how <;> rfl
  | completeReleaseSync _ _ =>
      cases answer with
      | completed leases => cases hx
      | _ => rfl
  | _ => rfl

lemma reports_of_neutral (hx : Neutral x = true) :
    reports (tr ++ [x]) leaseId = reports tr leaseId := by
  rw [reports_snoc, reported_of_neutral hx, List.count_nil, Nat.add_zero]

end Neutral

/-! ### The book and its history -/

/-- **The leases of a book and of its history.** -/
structure Leased (tr : History) (b : NativeLeaseBook) : Prop where
  known : ∀ k entry, b.leases.get k = some entry → (k, entry.identity) ∈ acquired tr
  unresolved : ∀ k entry, b.leases.get k = some entry → ¬Resolved tr k
  waits : ∀ k entry, b.leases.get k = some entry → ∀ releaseSyncId value,
    Deferred tr k releaseSyncId value ↔ entry.state = .releasePending releaseSyncId value
  gone : ∀ k identity, (k, identity) ∈ acquired tr → b.leases.get k = none → Resolved tr k
  acquiredOld : ∀ k identity, (k, identity) ∈ acquired tr → k < b.nextLeaseId
  resolvedOld : ∀ k, Resolved tr k → k < b.nextLeaseId
  deferred : ∀ k releaseSyncId value, Deferred tr k releaseSyncId value →
    ∃ identity, (k, identity) ∈ acquired tr
  once : ∀ k, Resolved tr k → reports tr k = 1
  never : ∀ k, ¬Resolved tr k → reports tr k = 0
  unique : ((acquired tr).map (·.1)).Nodup
  word : b.nextLeaseId ≤ maxId

/-- **The timelines of a book and of its history.** -/
structure Synced (tr : History) (b : NativeLeaseBook) : Prop where
  old : ∀ releaseSyncId, releaseSyncId ∈ generated tr ∨ releaseSyncId ∈ assigned tr →
    releaseSyncId < b.nextReleaseSyncId
  unique : (generated tr).Nodup
  fresh : Each (fun pre x => ∀ releaseSyncId, generatedBy x = some releaseSyncId →
    releaseSyncId ∉ generated pre ∧ releaseSyncId ∉ assigned pre) tr
  word : b.nextReleaseSyncId ≤ maxId

section Steps

variable {tr : History} {x : BookCall × BookAnswer} {b b' : NativeLeaseBook}

lemma filterMap_snoc {α β : Type} (f : α → Option β) (xs : List α) (y : α) :
    (xs ++ [y]).filterMap f = xs.filterMap f ++ (f y).toList := by
  rw [List.filterMap_append, List.filterMap_cons]
  cases f y with
  | none => rfl
  | some z => rfl

/-- **A call that resolves some of the leases, and reports just these.** -/
lemma Leased.settle (h : Leased tr b) (settled : ℕ → Bool) (hacquired : acquiredBy x = none)
    (hdeferred : ∀ k releaseSyncId value, Deferred (tr ++ [x]) k releaseSyncId value ↔
      Deferred tr k releaseSyncId value)
    (hresolved : ∀ k, Resolved (tr ++ [x]) k ↔ Resolved tr k ∨ settled k = true)
    (hheld : ∀ k, settled k = true → ∃ entry, b.leases.get k = some entry)
    (hcount : ∀ k, (reported x).count k = if settled k then 1 else 0)
    (hleases : ∀ k, b'.leases.get k = (b.leases.get k).filter fun _ => !settled k)
    (hnext : b'.nextLeaseId = b.nextLeaseId) : Leased (tr ++ [x]) b' := by
  have hsame : acquired (tr ++ [x]) = acquired tr := by
    rw [acquired, filterMap_snoc, hacquired]
    exact List.append_nil _
  have hkept : ∀ k entry, b'.leases.get k = some entry →
      b.leases.get k = some entry ∧ settled k = false := by
    intro k entry hget
    rw [hleases] at hget
    obtain ⟨hget, hnot⟩ := Option.filter_eq_some_iff.mp hget
    exact ⟨hget, (Bool.not_eq_true' _).mp hnot⟩
  have hopen : ∀ k, settled k = true → ¬Resolved tr k := by
    intro k hk
    obtain ⟨entry, hget⟩ := hheld k hk
    exact h.unresolved k entry hget
  constructor
  · intro k entry hget
    rw [hsame]
    exact h.known k entry (hkept k entry hget).1
  · intro k entry hget
    obtain ⟨hget, hnot⟩ := hkept k entry hget
    rw [hresolved, hnot, or_iff_left Bool.false_ne_true]
    exact h.unresolved k entry hget
  · intro k entry hget sync value
    rw [hdeferred]
    exact h.waits k entry (hkept k entry hget).1 sync value
  · intro k identity hmem hget
    rw [hresolved]
    rw [hleases] at hget
    cases hsettled : settled k with
    | true => exact Or.inr rfl
    | false =>
        refine Or.inl (h.gone k identity (hsame ▸ hmem) ?_)
        cases hentry : b.leases.get k with
        | none => rfl
        | some entry =>
            rw [hentry, Option.filter_some, hsettled] at hget
            cases hget
  · rw [hsame, hnext]
    exact h.acquiredOld
  · intro k hk
    rw [hnext]
    rcases (hresolved k).mp hk with hk | hk
    · exact h.resolvedOld k hk
    · obtain ⟨entry, hget⟩ := hheld k hk
      exact h.acquiredOld k _ (h.known k entry hget)
  · intro k sync value hk
    rw [hsame]
    exact h.deferred k sync value ((hdeferred k sync value).mp hk)
  · intro k hk
    rw [reports_snoc, hcount]
    cases hsettled : settled k with
    | true => rw [h.never k (hopen k hsettled), if_pos rfl]
    | false =>
        rw [hresolved, hsettled, or_iff_left Bool.false_ne_true] at hk
        rw [h.once k hk, if_neg Bool.false_ne_true]
  · intro k hk
    rw [hresolved, not_or] at hk
    rw [reports_snoc, hcount, h.never k hk.1, if_neg hk.2]
  · rw [hsame]
    exact h.unique
  · rw [hnext]
    exact h.word

/-- A call that leaves the leases alone. -/
lemma Leased.silent (h : Leased tr b) (hx : Neutral x = true) (hacquired : acquiredBy x = none)
    (hleases : b'.leases = b.leases) (hnext : b'.nextLeaseId = b.nextLeaseId) :
    Leased (tr ++ [x]) b' := by
  refine h.settle (fun _ => false) hacquired (fun _ _ _ => Deferred.of_neutral hx) (fun k => ?_)
    (fun _ h0 => nomatch h0) (fun k => ?_) (fun k => ?_) hnext
  · rw [Resolved.of_neutral hx, or_iff_left Bool.false_ne_true]
  · rw [reported_of_neutral hx]
    rfl
  · rw [hleases]
    cases b.leases.get k with
    | none => rfl
    | some entry => rfl

/-- A call that leaves the timelines alone. -/
lemma Synced.silent (h : Synced tr b) (hgenerated : generatedBy x = none)
    (hassigned : assignedBy x = none) (hnext : b'.nextReleaseSyncId = b.nextReleaseSyncId) :
    Synced (tr ++ [x]) b' := by
  have hgen : generated (tr ++ [x]) = generated tr := by
    rw [generated, filterMap_snoc, hgenerated]
    exact List.append_nil _
  have hass : assigned (tr ++ [x]) = assigned tr := by
    rw [assigned, filterMap_snoc, hassigned]
    exact List.append_nil _
  refine ⟨?_, hgen ▸ h.unique, h.fresh.snoc fun sync hsync => ?_, hnext ▸ h.word⟩
  · rw [hgen, hass, hnext]
    exact h.old
  · rw [hgenerated] at hsync
    cases hsync

/-- A lease is acquired. -/
lemma Leased.acquire (h : Leased tr b) (hlt : b.nextLeaseId ≠ maxId)
    (identity : NativeLeaseIdentity) :
    Leased (tr ++ [(BookCall.acquire identity, BookAnswer.leaseId b.nextLeaseId)]) { b with
      nextLeaseId := b.nextLeaseId + 1
      leases := b.leases.insert b.nextLeaseId ⟨identity, .outstanding⟩ } := by
  have hadd : acquired (tr ++ [(BookCall.acquire identity, BookAnswer.leaseId b.nextLeaseId)]) =
      acquired tr ++ [(b.nextLeaseId, identity)] := by
    rw [acquired, filterMap_snoc]
    rfl
  have hword := h.word
  have hres : ¬Resolved tr b.nextLeaseId := fun h0 => absurd (h.resolvedOld _ h0) (by omega)
  constructor
  · intro k entry hget
    rw [hadd, List.mem_append]
    rw [BTreeMap.get_insert] at hget
    split_ifs at hget with hk
    · cases hget
      exact Or.inr (List.mem_singleton.mpr (by rw [hk]))
    · exact Or.inl (h.known k entry hget)
  · intro k entry hget
    rw [Resolved.of_neutral rfl]
    rw [BTreeMap.get_insert] at hget
    split_ifs at hget with hk
    · rw [hk]
      exact hres
    · exact h.unresolved k entry hget
  · intro k entry hget sync value
    rw [Deferred.of_neutral rfl]
    rw [BTreeMap.get_insert] at hget
    split_ifs at hget with hk
    · cases hget
      refine iff_of_false (fun hdef => ?_) nofun
      obtain ⟨other, hmem⟩ := h.deferred k sync value hdef
      have hold := h.acquiredOld k other hmem
      omega
    · exact h.waits k entry hget sync value
  · intro k other hmem hget
    rw [Resolved.of_neutral rfl]
    rw [BTreeMap.get_insert] at hget
    split_ifs at hget with hk
    rw [hadd, List.mem_append] at hmem
    rcases hmem with hmem | hmem
    · exact h.gone k other hmem hget
    · cases List.mem_singleton.mp hmem
      exact absurd rfl hk
  · intro k other hmem
    show k < b.nextLeaseId + 1
    rw [hadd, List.mem_append] at hmem
    rcases hmem with hmem | hmem
    · exact Nat.lt_succ_of_lt (h.acquiredOld k other hmem)
    · cases List.mem_singleton.mp hmem
      exact Nat.lt_succ_self _
  · intro k hk
    exact Nat.lt_succ_of_lt (h.resolvedOld k ((Resolved.of_neutral rfl).mp hk))
  · intro k sync value hk
    obtain ⟨other, hmem⟩ := h.deferred k sync value ((Deferred.of_neutral rfl).mp hk)
    rw [hadd]
    exact ⟨other, List.mem_append_left _ hmem⟩
  · intro k hk
    rw [reports_of_neutral rfl]
    exact h.once k ((Resolved.of_neutral rfl).mp hk)
  · intro k hk
    rw [reports_of_neutral rfl]
    exact h.never k fun h0 => hk ((Resolved.of_neutral rfl).mpr h0)
  · rw [hadd, List.map_append]
    refine List.nodup_append.mpr ⟨h.unique, List.nodup_singleton _, ?_⟩
    intro k hk j hj heq
    obtain ⟨⟨_, other⟩, hmem, rfl⟩ := List.mem_map.mp hk
    have hold := h.acquiredOld _ other hmem
    have hj := List.mem_singleton.mp hj
    dsimp only at hj heq
    omega
  · show b.nextLeaseId + 1 ≤ maxId
    omega

/-- A lease is released `Now`. -/
lemma Leased.releaseNow (h : Leased tr b) {leaseId : ℕ} {identity : NativeLeaseIdentity}
    (hget : b.leases.get leaseId = some ⟨identity, .outstanding⟩) :
    Leased (tr ++ [(BookCall.release leaseId .now, BookAnswer.released ⟨leaseId, identity⟩)])
      { b with leases := b.leases.remove leaseId } := by
  refine h.settle (fun k => decide (k = leaseId)) rfl (fun k sync value => ?_) (fun k => ?_)
    (fun k hk => ?_) (fun k => ?_) (fun k => ?_) rfl
  · rw [deferred_snoc]
    exact or_iff_left (by rintro ⟨lease, h0⟩; cases h0)
  · rw [resolved_snoc, decide_eq_true_eq]
    refine or_congr_right ?_
    constructor
    · rintro (⟨lease, h0⟩ | ⟨_, _, _, _, -, h0, -⟩)
      · cases h0
        rfl
      · cases h0
    · rintro rfl
      exact Or.inl ⟨_, rfl⟩
  · rw [decide_eq_true_eq] at hk
    exact ⟨_, hk ▸ hget⟩
  · show List.count k [leaseId] = _
    rw [List.count_singleton, Bool.beq_eq_decide_eq]
    simp only [eq_comm]
  · rw [BTreeMap.get_remove]
    split_ifs with hk
    · rw [hk, hget, Option.filter_some]
      simp
    · rw [decide_eq_false hk]
      cases b.leases.get k with
      | none => rfl
      | some entry => rfl

/-- The release of a lease is deferred to a value of a timeline. -/
lemma Leased.defer (h : Leased tr b) {leaseId : ℕ} {identity : NativeLeaseIdentity}
    (hget : b.leases.get leaseId = some ⟨identity, .outstanding⟩) (releaseSyncId value : ℕ) :
    Leased (tr ++ [(BookCall.release leaseId (.timelineValue releaseSyncId value),
        BookAnswer.released ⟨leaseId, identity⟩)])
      { b with
        leases := b.leases.insert leaseId ⟨identity, .releasePending releaseSyncId value⟩ } := by
  have hdeferred : ∀ k sync v, Deferred (tr ++ [(BookCall.release leaseId
      (.timelineValue releaseSyncId value), BookAnswer.released ⟨leaseId, identity⟩)]) k sync v ↔
      Deferred tr k sync v ∨ k = leaseId ∧ sync = releaseSyncId ∧ v = value := by
    intro k sync v
    rw [deferred_snoc]
    refine or_congr_right ⟨?_, ?_⟩
    · rintro ⟨lease, h0⟩
      cases h0
      exact ⟨rfl, rfl, rfl⟩
    · rintro ⟨rfl, rfl, rfl⟩
      exact ⟨_, rfl⟩
  have hresolved : ∀ k, Resolved (tr ++ [(BookCall.release leaseId
      (.timelineValue releaseSyncId value), BookAnswer.released ⟨leaseId, identity⟩)]) k ↔
      Resolved tr k := by
    intro k
    rw [resolved_snoc]
    refine or_iff_left ?_
    rintro (⟨lease, h0⟩ | ⟨_, _, _, _, -, h0, -⟩)
    · cases h0
    · cases h0
  have hsame : acquired (tr ++ [(BookCall.release leaseId (.timelineValue releaseSyncId value),
      BookAnswer.released ⟨leaseId, identity⟩)]) = acquired tr := by
    rw [acquired, filterMap_snoc]
    exact List.append_nil _
  have hreports : ∀ k, reports (tr ++ [(BookCall.release leaseId
      (.timelineValue releaseSyncId value), BookAnswer.released ⟨leaseId, identity⟩)]) k =
      reports tr k := by
    intro k
    rw [reports_snoc]
    rfl
  constructor
  · intro k entry hk
    rw [hsame]
    rw [BTreeMap.get_insert] at hk
    split_ifs at hk with hkey
    · cases hk
      have hmem := h.known leaseId _ hget
      rw [hkey]
      exact hmem
    · exact h.known k entry hk
  · intro k entry hk
    rw [hresolved]
    rw [BTreeMap.get_insert] at hk
    split_ifs at hk with hkey
    · rw [hkey]
      exact h.unresolved leaseId _ hget
    · exact h.unresolved k entry hk
  · intro k entry hk sync v
    rw [hdeferred]
    rw [BTreeMap.get_insert] at hk
    split_ifs at hk with hkey
    · cases hk
      have hnone := h.waits leaseId _ hget sync v
      rw [hkey]
      constructor
      · rintro (hdef | ⟨-, rfl, rfl⟩)
        · exact absurd (hnone.mp hdef) nofun
        · rfl
      · intro heq
        cases heq
        exact Or.inr ⟨rfl, rfl, rfl⟩
    · rw [or_iff_left fun h0 => hkey h0.1]
      exact h.waits k entry hk sync v
  · intro k other hmem hk
    rw [hresolved]
    rw [BTreeMap.get_insert] at hk
    split_ifs at hk with hkey
    exact h.gone k other (hsame ▸ hmem) hk
  · rw [hsame]
    exact h.acquiredOld
  · intro k hk
    exact h.resolvedOld k ((hresolved k).mp hk)
  · intro k sync v hk
    rw [hsame]
    rcases (hdeferred k sync v).mp hk with hk | ⟨rfl, -⟩
    · exact h.deferred k sync v hk
    · exact ⟨identity, h.known k _ hget⟩
  · intro k hk
    rw [hreports]
    exact h.once k ((hresolved k).mp hk)
  · intro k hk
    rw [hreports]
    exact h.never k fun h0 => hk ((hresolved k).mpr h0)
  · rw [hsame]
    exact h.unique
  · exact h.word

/-- A timeline has reached a value. -/
lemma Leased.complete (h : Leased tr b) (releaseSyncId reached : ℕ) :
    Leased (tr ++ [(BookCall.completeReleaseSync releaseSyncId reached, BookAnswer.completed
        ((b.leases.entries.filter fun e => NativeLeaseBook.completes releaseSyncId reached e.2).map
          fun e => ⟨e.1, e.2.identity⟩))])
      { b with leases := b.leases.retain fun _ entry =>
          !NativeLeaseBook.completes releaseSyncId reached entry } := by
  have hsettled : ∀ k entry, b.leases.get k = some entry →
      (NativeLeaseBook.completes releaseSyncId reached entry = true ↔
        ∃ value, Deferred tr k releaseSyncId value ∧ value ≤ reached) := by
    intro k entry hget
    have hwaits := h.waits k entry hget
    obtain ⟨identity, state⟩ := entry
    simp only [hwaits, NativeLeaseBook.completes]
    cases state with
    | outstanding => simp
    | releasePending sync value =>
        simp only [Bool.and_eq_true, beq_iff_eq, decide_eq_true_eq, LeaseState.releasePending.injEq]
        constructor
        · rintro ⟨rfl, hle⟩
          exact ⟨value, ⟨rfl, rfl⟩, hle⟩
        · rintro ⟨_, ⟨rfl, rfl⟩, hle⟩
          exact ⟨rfl, hle⟩
  refine h.settle (fun k => (b.leases.get k).any (NativeLeaseBook.completes releaseSyncId reached))
    rfl (fun k sync value => ?_) (fun k => ?_) (fun k hk => ?_) (fun k => ?_) (fun k => ?_) rfl
  · rw [deferred_snoc]
    exact or_iff_left (by rintro ⟨lease, h0⟩; cases h0)
  · rw [resolved_snoc]
    by_cases hres : Resolved tr k
    · exact iff_of_true (Or.inl hres) (Or.inl hres)
    rw [or_iff_right hres, or_iff_right hres, Option.any_eq_true]
    constructor
    · rintro (⟨lease, h0⟩ | ⟨sync, value, r, leases, hdef, h0, hle⟩)
      · cases h0
      · cases h0
        cases hget : b.leases.get k with
        | none =>
            obtain ⟨identity, hmem⟩ := h.deferred k _ value hdef
            exact absurd (h.gone k identity hmem hget) hres
        | some entry => exact ⟨entry, rfl, (hsettled k entry hget).mpr ⟨value, hdef, hle⟩⟩
    · rintro ⟨entry, hget, hcompletes⟩
      obtain ⟨value, hdef, hle⟩ := (hsettled k entry hget).mp hcompletes
      exact Or.inr ⟨releaseSyncId, value, reached, _, hdef, rfl, hle⟩
  · rw [Option.any_eq_true] at hk
    obtain ⟨entry, hget, -⟩ := hk
    exact ⟨entry, hget⟩
  · show List.count k (List.map _ (List.map _ _)) = _
    rw [List.map_map]
    exact b.leases.count_keys_filter (NativeLeaseBook.completes releaseSyncId reached) k
  · rw [BTreeMap.get_retain]
    cases b.leases.get k with
    | none => rfl
    | some entry => rfl

/-- The book makes up the id of a timeline. -/
lemma Synced.generate (h : Synced tr b) (hlt : b.nextReleaseSyncId ≠ maxId) :
    Synced (tr ++ [(BookCall.registerReleaseSync,
      BookAnswer.releaseSyncId b.nextReleaseSyncId)]) { b with
      nextReleaseSyncId := b.nextReleaseSyncId + 1
      releaseSyncs := b.releaseSyncs.insert b.nextReleaseSyncId } := by
  have hgenerated : generated (tr ++ [(BookCall.registerReleaseSync,
      BookAnswer.releaseSyncId b.nextReleaseSyncId)]) = generated tr ++ [b.nextReleaseSyncId] := by
    rw [generated, filterMap_snoc]
    rfl
  have hassigned : assigned (tr ++ [(BookCall.registerReleaseSync,
      BookAnswer.releaseSyncId b.nextReleaseSyncId)]) = assigned tr := by
    rw [assigned, filterMap_snoc]
    exact List.append_nil _
  have hword := h.word
  constructor
  · intro sync hmem
    show sync < b.nextReleaseSyncId + 1
    rw [hgenerated, hassigned, List.mem_append, List.mem_singleton] at hmem
    rcases hmem with (hmem | rfl) | hmem
    · exact Nat.lt_succ_of_lt (h.old sync (Or.inl hmem))
    · exact Nat.lt_succ_self _
    · exact Nat.lt_succ_of_lt (h.old sync (Or.inr hmem))
  · rw [hgenerated]
    refine List.nodup_append.mpr ⟨h.unique, List.nodup_singleton _, ?_⟩
    intro sync hsync other hother heq
    have hold := h.old sync (Or.inl hsync)
    have hother := List.mem_singleton.mp hother
    omega
  · refine h.fresh.snoc fun sync hsync => ?_
    cases hsync
    constructor
    · intro hmem
      exact Nat.lt_irrefl _ (h.old _ (Or.inl hmem))
    · intro hmem
      exact Nat.lt_irrefl _ (h.old _ (Or.inr hmem))
  · show b.nextReleaseSyncId + 1 ≤ maxId
    omega

/-- A timeline comes with its id, and the ids that are made up go on above it. -/
lemma Synced.assign (h : Synced tr b) (releaseSyncId : Fin (2 ^ 64))
    (hlt : releaseSyncId.val ≠ maxId) :
    Synced (tr ++ [(BookCall.registerReleaseSyncId releaseSyncId, BookAnswer.registered)]) { b with
      nextReleaseSyncId := max b.nextReleaseSyncId (releaseSyncId + 1)
      releaseSyncs := b.releaseSyncs.insert releaseSyncId } := by
  have hgenerated : generated (tr ++ [(BookCall.registerReleaseSyncId releaseSyncId,
      BookAnswer.registered)]) =
      generated tr := by
    rw [generated, filterMap_snoc]
    exact List.append_nil _
  have hassigned : assigned (tr ++ [(BookCall.registerReleaseSyncId releaseSyncId,
      BookAnswer.registered)]) =
      assigned tr ++ [releaseSyncId.val] := by
    rw [assigned, filterMap_snoc]
    rfl
  have hword := h.word
  have hlast := releaseSyncId.isLt
  constructor
  · intro sync hmem
    show sync < max b.nextReleaseSyncId (releaseSyncId + 1)
    rw [hgenerated, hassigned, List.mem_append, List.mem_singleton] at hmem
    rcases hmem with hmem | hmem | rfl
    · exact Nat.lt_of_lt_of_le (h.old sync (Or.inl hmem)) (Nat.le_max_left _ _)
    · exact Nat.lt_of_lt_of_le (h.old sync (Or.inr hmem)) (Nat.le_max_left _ _)
    · exact Nat.lt_of_lt_of_le (Nat.lt_succ_self _) (Nat.le_max_right _ _)
  · rw [hgenerated]
    exact h.unique
  · exact h.fresh.snoc fun sync hsync => nomatch hsync
  · show max b.nextReleaseSyncId (releaseSyncId + 1) ≤ maxId
    rw [maxId] at hlt hword ⊢
    omega

/-- **A call keeps what the book and its history have in common.** -/
lemma call_tracks (hleased : Leased tr b) (hsynced : Synced tr b) (c : BookCall) :
    Leased (tr ++ [(c, (b.call c).2)]) (b.call c).1 ∧
      Synced (tr ++ [(c, (b.call c).2)]) (b.call c).1 := by
  cases c with
  | acquire identity =>
      rw [NativeLeaseBook.call, NativeLeaseBook.acquire]
      split_ifs with hlast
      · exact ⟨hleased.silent rfl rfl rfl rfl, hsynced.silent rfl rfl rfl⟩
      · exact ⟨hleased.acquire hlast identity, hsynced.silent rfl rfl rfl⟩
  | registerReleaseSync =>
      rw [NativeLeaseBook.call, NativeLeaseBook.registerReleaseSync]
      split_ifs with hlast
      · exact ⟨hleased.silent rfl rfl rfl rfl, hsynced.silent rfl rfl rfl⟩
      · exact ⟨hleased.silent rfl rfl rfl rfl, hsynced.generate hlast⟩
  | registerReleaseSyncId releaseSyncId =>
      rw [NativeLeaseBook.call, NativeLeaseBook.registerReleaseSyncId]
      split_ifs with hlast
      · exact ⟨hleased.silent rfl rfl rfl rfl, hsynced.silent rfl rfl rfl⟩
      · exact ⟨hleased.silent rfl rfl rfl rfl, hsynced.assign releaseSyncId hlast⟩
  | release leaseId how =>
      rw [NativeLeaseBook.call]
      rcases b.release_cases leaseId how with ⟨e, he⟩ | ⟨identity, hget, ⟨rfl, he⟩ |
        ⟨sync, value, rfl, -, he⟩⟩
      · rw [he]
        cases how with
        | now => exact ⟨hleased.silent rfl rfl rfl rfl, hsynced.silent rfl rfl rfl⟩
        | timelineValue sync value =>
            exact ⟨hleased.silent rfl rfl rfl rfl, hsynced.silent rfl rfl rfl⟩
      · rw [he]
        exact ⟨hleased.releaseNow hget, hsynced.silent rfl rfl rfl⟩
      · rw [he]
        exact ⟨hleased.defer hget sync value, hsynced.silent rfl rfl rfl⟩
  | completeReleaseSync sync reached =>
      rw [NativeLeaseBook.call, NativeLeaseBook.completeReleaseSync]
      split_ifs with hsync
      · exact ⟨hleased.complete sync reached, hsynced.silent rfl rfl rfl⟩
      · exact ⟨hleased.silent rfl rfl rfl rfl, hsynced.silent rfl rfl rfl⟩

end Steps

/-! ### Runs -/

variable {tr : History} {b : NativeLeaseBook}

lemma tracks (h : Runs NativeLeaseBook.call Always {} tr b) : Leased tr b ∧ Synced tr b := by
  refine h.invariant (P := fun tr b => Leased tr b ∧ Synced tr b) ⟨?_, ?_⟩
    fun tr b c _ htracked _ => call_tracks htracked.1 htracked.2 c
  · refine ⟨nofun, nofun, nofun, nofun, nofun, fun k hk => ?_, fun k sync value hk => ?_,
      fun k hk => ?_, fun _ _ => rfl, List.nodup_nil, by decide⟩
    · rcases hk with ⟨_, hk⟩ | ⟨pre, post, _, _, _, _, heq, -, hk, -⟩
      · cases hk
      · rw [(List.append_eq_nil_iff.mp heq.symm).2] at hk
        cases hk
    · obtain ⟨_, hk⟩ := hk
      cases hk
    · rcases hk with ⟨_, hk⟩ | ⟨pre, post, _, _, _, _, heq, -, hk, -⟩
      · cases hk
      · rw [(List.append_eq_nil_iff.mp heq.symm).2] at hk
        cases hk
  · exact ⟨fun _ h0 => (nomatch h0), List.nodup_nil, each_nil, by decide⟩

/-- A call that fails leaves the book as it was. -/
lemma call_failed {c : BookCall} {e : NativeLeaseError} (h : (b.call c).2 = .failed e) :
    (b.call c).1 = b := by
  cases c with
  | acquire identity =>
      rw [NativeLeaseBook.call, NativeLeaseBook.acquire] at h ⊢
      split_ifs at h ⊢
      · rfl
      · cases h
  | registerReleaseSync =>
      rw [NativeLeaseBook.call, NativeLeaseBook.registerReleaseSync] at h ⊢
      split_ifs at h ⊢
      · rfl
      · cases h
  | registerReleaseSyncId releaseSyncId =>
      rw [NativeLeaseBook.call, NativeLeaseBook.registerReleaseSyncId] at h ⊢
      split_ifs at h ⊢
      · rfl
      · cases h
  | release leaseId how =>
      rw [NativeLeaseBook.call] at h ⊢
      rcases b.release_cases leaseId how with ⟨_, he⟩ | ⟨_, -, ⟨-, he⟩ | ⟨_, _, -, -, he⟩⟩
      · rw [he]
        rfl
      · rw [he] at h
        cases h
      · rw [he] at h
        cases h
  | completeReleaseSync releaseSyncId reached =>
      rw [NativeLeaseBook.call, NativeLeaseBook.completeReleaseSync] at h ⊢
      split_ifs at h ⊢
      · cases h
      · rfl

/-- **The book agrees with its history**, whatever calls were made.

A slot has an unresolved lease if and only if one was acquired on it that is not resolved. A
lease is reported once it is resolved, and once only. The ids of leases and those that are made
up for timelines are given out once, these apart from the ids that came from elsewhere before.
A call that fails leaves the book as it was. -/
theorem leases_tracked (h : Runs NativeLeaseBook.call Always {} tr b) :
    (∀ poolId slotId, b.slotHasUnresolvedLeases poolId slotId = true ↔
      ∃ leaseId identity, (leaseId, identity) ∈ acquired tr ∧ identity.poolId = poolId ∧
        identity.slotId = slotId ∧ ¬Resolved tr leaseId) ∧
    (∀ leaseId, (Resolved tr leaseId → reports tr leaseId = 1) ∧
      (¬Resolved tr leaseId → reports tr leaseId = 0)) ∧
    ((acquired tr).map (·.1)).Nodup ∧ (generated tr).Nodup ∧
    Each (fun pre x => ∀ releaseSyncId, generatedBy x = some releaseSyncId →
      releaseSyncId ∉ generated pre ∧ releaseSyncId ∉ assigned pre) tr ∧
    (∀ c e, (b.call c).2 = .failed e → (b.call c).1 = b) ∧
    b.nextLeaseId < 2 ^ 64 ∧ b.nextReleaseSyncId < 2 ^ 64 := by
  obtain ⟨hleased, hsynced⟩ := tracks h
  refine ⟨fun poolId slotId => ?_, fun k => ⟨hleased.once k, hleased.never k⟩, hleased.unique,
    hsynced.unique, hsynced.fresh, fun c e => call_failed,
    Nat.lt_of_le_of_lt hleased.word (by decide), Nat.lt_of_le_of_lt hsynced.word (by decide)⟩
  rw [NativeLeaseBook.slotHasUnresolvedLeases, List.any_eq_true]
  constructor
  · rintro ⟨entry, hmem, hslot⟩
    obtain ⟨k, hget⟩ := BTreeMap.mem_values.mp hmem
    rw [Bool.and_eq_true, beq_iff_eq, beq_iff_eq] at hslot
    exact ⟨k, entry.identity, hleased.known k entry hget, hslot.1, hslot.2,
      hleased.unresolved k entry hget⟩
  · rintro ⟨k, identity, hmem, rfl, rfl, hopen⟩
    cases hget : b.leases.get k with
    | none => exact absurd (hleased.gone k identity hmem hget) hopen
    | some entry =>
        have hsame : entry.identity = identity := by
          have hknown := hleased.known k entry hget
          have hinj := List.inj_on_of_nodup_map hleased.unique hknown hmem rfl
          exact congrArg Prod.snd hinj
        refine ⟨entry, BTreeMap.mem_values.mpr ⟨k, hget⟩, ?_⟩
        rw [hsame, Bool.and_eq_true, beq_iff_eq, beq_iff_eq]
        exact ⟨rfl, rfl⟩

/-- Two leases on one slot, and a timeline from elsewhere. -/
def sharedSlot : List BookCall :=
  [.registerReleaseSyncId 42, .acquire ⟨1, 1, 7, 3⟩, .acquire ⟨1, 1, 7, 3⟩,
    .release 1 (.timelineValue 42 5), .completeReleaseSync 42 4, .completeReleaseSync 42 6,
    .registerReleaseSync]

theorem leases_tracked_shared :
    Resolved (record NativeLeaseBook.call {} sharedSlot).1 1 ∧
      reports (record NativeLeaseBook.call {} sharedSlot).1 1 = 1 := by
  have hresolved : Resolved (record NativeLeaseBook.call {} sharedSlot).1 1 :=
    Or.inr ⟨(record NativeLeaseBook.call {} sharedSlot).1.take 4,
      (record NativeLeaseBook.call {} sharedSlot).1.drop 4, 42, 5, 6, [⟨1, ⟨1, 1, 7, 3⟩⟩],
      (List.take_append_drop _ _).symm, ⟨⟨1, ⟨1, 1, 7, 3⟩⟩, by decide⟩, by decide, by decide⟩
  exact ⟨hresolved, ((leases_tracked (Runs.of_record _ _ _)).2.1 1).1 hresolved⟩

end Jackstay.Native
