import Jackstay.Acquisition.Arena.Notification
import Jackstay.Acquisition.Arena.Offers
import Jackstay.Acquisition.Arena.Sizes

/-!
`acquisition/arena.rs`, `arena/writer.rs`: writing in place, and publishing a copy.

`publish` scans for a slot, copies the bytes and publishes it. `reserve` scans for a slot
and flags it; the holder writes the bytes, and `commit` publishes the slot and clears the
flag. The two pairs of functions are written separately in the source. Here the thread of
the producer is run alone: only its own steps, and those of its calls and polls on the claim
pages.

* `Arena.reserving`, `Arena.pending`, `Arena.committing`: where `reserve` and `commit` are
  when `publish` is in an arena. The steps commute with them.
* `Arena.copies_iff_inPlace`: the two ways reach the same arenas.
-/

namespace Jackstay.Acquisition

open Transition

namespace Arena

variable {s t u a b : Arena} {v g index : ℕ} {d : FrameDescriptor} {bytes : List UInt8} {l : Label}

/-- The steps of the producer's thread while the clock shows `v`. -/
def Label.threads (v : ℕ) : Label → Prop
  | .producer e => e.value = v
  | .incarnation _ (.host _) => True
  | .incarnation _ (.observe _) => True
  | _ => False

end Arena

/-- The consumer whose observer the producer polls, or waits for. -/
def Pc.awaits : Pc → Option ℕ
  | .cleanup (.observers (i :: _)) _ => some i
  | .cleanup (.polling i _) _ => some i
  | .cleanup (.remove i _) _ => some i
  | _ => none

namespace Arena

/-- The producer is at the page, or at the observer, that takes the step. -/
def Label.Concerns (pc : Pc) : Label → Prop
  | .incarnation i (.host _) => pc.calling = some i
  | .incarnation i (.observe _) => pc.awaits = some i
  | _ => True

/-- The producer's call is running, and nobody else does anything. -/
def Alone (v : ℕ) (s : Arena) (l : Label) : Prop :=
  s.producer.pc ≠ .idle ∧ l.threads v ∧ l.Concerns s.producer.pc

end Arena

/-! ### Looking for a slot -/

/-- Where `reserve` is when `publish` is here. -/
def Pc.reserving : Pc → Pc
  | .terminal (.publish _) => .terminal .reserve
  | .cleanup c (.publish _) => .cleanup c .reserve
  | .resume (.publish _) => .resume .reserve
  | .scan (.publish _) off => .scan .reserve off
  | .scanState (.publish _) off => .scanState .reserve off
  | .scanRetire (.publish _) off generation => .scanRetire .reserve off generation
  | .scanClaims (.publish _) off generation probes => .scanClaims .reserve off generation probes
  | .copy index _ _ => .reserveFlag index
  | pc => pc

/-- What `reserve` returns when `publish` returns this. -/
def Outcome.reserving : Outcome → Outcome
  | .dropped => .noSlot
  | o => o

/-- What `publish` returns when `reserve` returns this. -/
def Outcome.publishing : Outcome → Outcome
  | .noSlot => .dropped
  | o => o

/-- The same for the producer. -/
def Producer.reserving (p : Producer) : Producer :=
  { p with
    pc := p.pc.reserving
    outcome := match p.pc with
      | .idle => p.outcome.reserving
      | _ => p.outcome }

/-- `publish` is looking for its slot, or has returned without one. -/
def Pc.Searches (d : FrameDescriptor) (bytes : List UInt8) : Pc → Prop
  | .idle => True
  | .terminal goal => goal = .publish (.cpu d bytes)
  | .cleanup _ goal => goal = .publish (.cpu d bytes)
  | .resume goal => goal = .publish (.cpu d bytes)
  | .scan w _ => w = .publish (.cpu d bytes)
  | .scanState w _ => w = .publish (.cpu d bytes)
  | .scanRetire w _ _ => w = .publish (.cpu d bytes)
  | .scanClaims w _ _ _ => w = .publish (.cpu d bytes)
  | .copy _ d' bytes' => d' = d ∧ bytes' = bytes
  | .terminate after => after = .finish (.error .generationsExhausted)
  | .pages .close _ after => after = .finish (.error .generationsExhausted)
  | .paged .close _ _ after => after = .finish (.error .generationsExhausted)
  | _ => False

/-- The slot that the scan is looking at, once it has seen that it is not reserved. -/
def Pc.looksAt (s : Arena) : Pc → Option ℕ
  | .scanState _ off => some (s.scanIndex off)
  | .scanRetire _ off _ => some (s.scanIndex off)
  | .scanClaims _ off _ _ => some (s.scanIndex off)
  | .copy index _ _ => some index
  | _ => none

namespace Arena

variable {s t u a b : Arena} {v g index : ℕ} {d : FrameDescriptor} {bytes : List UInt8} {l : Label}

/-- Where `reserve` is when `publish` is here. -/
def reserving (s : Arena) : Arena := { s with producer := s.producer.reserving }

/-- **`publish` is looking for a slot** in the allocation `g`. -/
structure Searching (g : ℕ) (d : FrameDescriptor) (bytes : List UInt8) (a : Arena) : Prop where
  place : a.producer.pc.Searches d bytes
  resources : a.producer.resources = some g
  nonzero : (a.shared.maps g).layout.payloadCapacity ≠ 0
  room : bytes.length ≤ (a.shared.maps g).layout.payloadCapacity
  outcome : a.producer.pc = .idle →
    a.producer.outcome = .dropped ∨ ∃ e, a.producer.outcome = .error e
  vacant : ∀ index, a.producer.pc.looksAt a = some index →
    (a.record g index).reserved = false
  limit : a.producer.pc.inScan = true → a.producer.cursor ≠ maxGeneration

/-- The steps on a claim page do not see the producer. -/
lemma incarnation_reserving (i : ℕ) (l : IncLabel) :
    a.reserving.step (.incarnation i l) = (a.step (.incarnation i l)).map reserving := by
  simp only [step, reserving, Option.bind_eq_bind]
  cases a.incarnations i with
  | none => rfl
  | some inc =>
      simp only [Option.bind_some]
      cases inc.step a.shared l with
      | none => rfl
      | some inc' => rfl

/-- The end of the cleanup of an incarnation does not look at the call either. -/
lemma claimsFrom_reserving {source : Source} {c : CleanupPc}
    (hpc : a.producer.pc = .cleanup c (.publish source)) (i k : ℕ) (todo : List ℕ) :
    a.reserving.claimsFrom i k todo .reserve =
      (a.claimsFrom i k todo (.publish source)).reserving := by
  obtain ⟨sh, ⟨res, ret, pend, book, cl, cur, ns, rel, pc, out⟩, incs, log⟩ := a
  cases hpc
  by_cases hk : ((incs i).map Incarnation.frames).getD 0 ≤ k
  · simp only [claimsFrom, reserving, Producer.reserving, hk, if_true, collect]
    rcases (AdmissionBook.close i).on book with ⟨_ | _, book'⟩
    · rfl
    · simp only
      rcases (AdmissionBook.completeCleanup i).on book' with ⟨_ | _, book''⟩ <;> rfl
  · simp only [claimsFrom, reserving, Producer.reserving, hk, if_false]
    rfl

/-- Nor does the cleanup of a retired allocation. -/
lemma reclaim_reserving {source : Source} {c : CleanupPc}
    (hpc : a.producer.pc = .cleanup c (.publish source)) (index r : ℕ) :
    a.reserving.reclaim index r .reserve = (a.reclaim index r (.publish source)).reserving := by
  obtain ⟨sh, ⟨res, ret, pend, book, cl, cur, ns, rel, pc, out⟩, incs, log⟩ := a
  cases hpc
  simp only [reclaim, reserving, Producer.reserving]
  rcases (AdmissionBook.completeAllocationCleanup r).on book with ⟨_ | _, book'⟩ <;> rfl

/-- `poll_cleanup` does not look at the call it runs for. -/
lemma cleanupStep_reserving {c : CleanupPc} {source : Source}
    (hpc : a.producer.pc = .cleanup c (.publish source)) (e : Env) :
    a.reserving.cleanupStep e .reserve c =
      (a.cleanupStep e (.publish source) c).map reserving := by
  have hclaims := fun i k todo => claimsFrom_reserving hpc i k todo
  have hreclaim := fun index r => reclaim_reserving hpc index r
  have hready : ∀ r index ready, ((a.onMap r fun map => { map with ready }).reserving).reclaim
      index r .reserve =
        ((a.onMap r fun map => { map with ready }).reclaim index r (.publish source)).reserving :=
    fun r index ready => reclaim_reserving (a := a.onMap r fun map => { map with ready }) hpc index r
  obtain ⟨sh, ⟨res, ret, pend, book, cl, cur, ns, rel, pc, out⟩, incs, log⟩ := a
  cases hpc
  cases c with
  | observers todo =>
      cases todo with
      | nil => rfl
      | cons i todo =>
          simp only [cleanupStep, reserving, Option.bind_eq_bind]
          cases incs i with
          | none => rfl
          | some inc =>
              simp only [Option.bind_some]
              split_ifs <;> rfl
  | polling i todo =>
      simp only [cleanupStep, reserving, Option.bind_eq_bind]
      cases incs i with
      | none => rfl
      | some inc =>
          simp only [Option.bind_some]
          split_ifs <;> rfl
  | quiescent todo =>
      cases todo with
      | nil => rfl
      | cons i todo =>
          simp only [cleanupStep, reserving, Option.bind_eq_bind]
          cases incs i with
          | none => rfl
          | some inc =>
              simp only [Option.bind_some]
              split_ifs <;> rfl
  | mapping i m todo =>
      have hi := hclaims i 0 todo
      simp only [cleanupStep, Option.bind_eq_bind]
      simp only [reserving] at hi ⊢
      cases incs i with
      | none => rfl
      | some inc =>
          simp only [Option.bind_some]
          split_ifs
          · rfl
          · rfl
          · exact congrArg some hi
  | claim i k todo =>
      have hi := hclaims i (k + 1) todo
      simp only [cleanupStep, Option.bind_eq_bind]
      simp only [reserving] at hi ⊢
      cases incs i with
      | none => rfl
      | some inc =>
          simp only [Option.bind_some]
          split_ifs
          · rfl
          · exact congrArg some hi
  | remove i todo =>
      simp only [cleanupStep, reserving, Option.bind_eq_bind]
      cases incs i with
      | none => rfl
      | some inc =>
          simp only [Option.bind_some]
          split_ifs <;> rfl
  | retired index =>
      simp only [cleanupStep, reserving, Producer.reserving]
      cases ret[index]? <;> rfl
  | probe index probes =>
      cases probes with
      | nil => rfl
      | cons probe probes =>
          simp only [cleanupStep, reserving, Producer.reserving, Option.bind_eq_bind]
          cases ret[index]? with
          | none => rfl
          | some r =>
              simp only [Option.bind_some]
              cases probe with
              | mapping i m =>
                  dsimp only
                  cases incs i <;> rfl
              | record i slot =>
                  dsimp only
                  cases incs i <;> rfl
              | claim i cursor k =>
                  dsimp only
                  cases incs i <;> rfl
  | count index =>
      simp only [cleanupStep, Option.bind_eq_bind]
      simp only [reserving, Producer.reserving] at hreclaim ⊢
      cases ret[index]? with
      | none => rfl
      | some r =>
          simp only [Option.bind_some]
          by_cases hcount : (sh.maps r.generation).strongCount = 1
          swap
          · simp only [ne_eq, hcount, not_false_eq_true, if_true]
            rfl
          by_cases hnative : r.native = true
          · simp only [ne_eq, hcount, not_true, if_false, hnative, if_true]
            rfl
          · simp only [ne_eq, hcount, not_true, if_false, hnative]
            exact congrArg some (hreclaim index r.generation)
  | ready index =>
      simp only [cleanupStep, Option.bind_eq_bind]
      simp only [reserving, Producer.reserving] at hready ⊢
      cases ret[index]? with
      | none => rfl
      | some r =>
          simp only [Option.bind_some]
          by_cases hfail : e.fail = true
          · simp only [if_pos hfail]
            rfl
          by_cases hskip : e.skip = true
          · simp only [if_neg hfail, if_pos hskip]
            rfl
          · simp only [if_neg hfail, if_neg hskip]
            exact congrArg some (hready r.generation index _)

/-- While a call is running, its place is all that changes. -/
lemma reserving_eq (hpc : a.producer.pc ≠ .idle) :
    a.reserving = a.goto a.producer.pc.reserving := by
  obtain ⟨sh, ⟨res, ret, pend, book, cl, cur, ns, rel, pc, out⟩, incs, log⟩ := a
  cases pc with
  | idle => exact absurd rfl hpc
  | _ => rfl

lemma reserving_goto (a : Arena) {pc : Pc} (hpc : pc ≠ .idle) :
    (a.goto pc).reserving = a.goto pc.reserving := reserving_eq (a := a.goto pc) hpc

/-- A scan that goes on, or gives up. -/
lemma reserving_scanFrom (a : Arena) (source : Source) (off : ℕ) :
    (a.scanFrom (.publish source) off).reserving = a.scanFrom .reserve off := by
  by_cases hoff : off < a.layout.resources
  · have hscan : ∀ w, a.scanFrom w off = a.goto (.scan w off) := fun w => if_pos hoff
    rw [hscan, hscan, reserving_goto a (by rintro ⟨⟩)]
    rfl
  · rw [scanFrom, scanFrom, if_neg hoff, if_neg hoff]
    rfl

/-- A place does not matter to a scan that goes on. -/
lemma scanFrom_goto (a : Arena) (pc : Pc) (w : Writer) (off : ℕ) :
    (a.goto pc).scanFrom w off = a.scanFrom w off := by
  by_cases hoff : off < a.layout.resources
  · have hscan : ∀ b : Arena, b.layout = a.layout → b.scanFrom w off = b.goto (.scan w off) :=
      fun b hb => if_pos (by rw [hb]; exact hoff)
    rw [hscan a rfl, hscan (a.goto pc) rfl]
    rfl
  · have hlayout : (a.goto pc).layout = a.layout := rfl
    simp only [scanFrom, hlayout, if_neg hoff]
    rfl

/-- A scan that has found a slot. -/
lemma reserving_found (a : Arena) (d : FrameDescriptor) (bytes : List UInt8) (off : ℕ) :
    (a.found off (.publish (.cpu d bytes))).reserving = a.found off .reserve :=
  reserving_goto a (by rintro ⟨⟩)

/-- The slot scan. -/
lemma scanStep_reserving (hpc : a.producer.pc ≠ .idle)
    (hplace : a.producer.pc.Searches d bytes) (hscan : a.producer.pc.inScan = true)
    (hcopy : ∀ index, a.producer.pc ≠ .copy index d bytes) :
    a.reserving.scanStep a.producer.pc.reserving =
      (a.scanStep a.producer.pc).map reserving := by
  rw [reserving_eq hpc]
  generalize a.producer.pc = pc at hplace hscan hcopy ⊢
  cases pc with
  | scan w off =>
      cases hplace
      simp only [Pc.reserving, scanStep, Option.map_some, Option.some.injEq, scanFrom_goto]
      rw [apply_ite reserving, reserving_scanFrom, reserving_goto a (by rintro ⟨⟩)]
      rfl
  | scanState w off =>
      cases hplace
      simp only [Pc.reserving, scanStep, Option.map_some, Option.some.injEq, scanFrom_goto]
      rw [apply_ite reserving, reserving_scanFrom, reserving_goto a (by rintro ⟨⟩)]
      rfl
  | scanRetire w off generation =>
      cases hplace
      simp only [Pc.reserving, scanStep, Option.map_some, Option.some.injEq]
      rw [apply_ite reserving, reserving_found, reserving_goto _ (by rintro ⟨⟩)]
      rfl
  | scanClaims w off generation probes =>
      cases hplace
      cases probes with
      | nil =>
          simp only [Pc.reserving, scanStep, Option.map_some, Option.some.injEq]
          rw [reserving_found]
          rfl
      | cons probe probes =>
          simp only [Pc.reserving, scanStep, Option.bind_eq_bind, goto_incarnations]
          cases a.incarnations probe.1 with
          | none => rfl
          | some inc =>
              simp only [Option.bind_some, Option.map_some, Option.some.injEq, scanFrom_goto,
                Option.pure_def]
              rw [apply_ite reserving, reserving_scanFrom, reserving_goto a (by rintro ⟨⟩)]
              rfl
  | copy index d' bytes' =>
      obtain ⟨rfl, rfl⟩ := hplace
      exact absurd rfl (hcopy index)
  | prepare off => exact hplace.elim
  | _ => cases hscan

/-- The rest of the call after `poll_cleanup`. -/
lemma resume_reserving (h : Searching g d bytes a) (hpc : a.producer.pc ≠ .idle) (e : Env) :
    a.reserving.resume e .reserve = (a.resume e (.publish (.cpu d bytes))).reserving := by
  rw [reserving_eq hpc]
  have hcurrent : a.current = g := by rw [current, h.resources]; rfl
  have hnonzero : a.layout.payloadCapacity ≠ 0 := by rw [layout, hcurrent]; exact h.nonzero
  have hroom : ¬ a.layout.payloadCapacity < bytes.length := by
    rw [layout, hcurrent]
    exact Nat.not_lt.mpr h.room
  have hleft : (a.goto a.producer.pc.reserving).resume e .reserve =
      if a.producer.cursor = maxGeneration then
        a.goto (.terminate (.finish (.error .generationsExhausted)))
      else a.scanFrom .reserve 0 := by
    have hres : (a.goto a.producer.pc.reserving).producer.resources = some g := h.resources
    simp only [resume, hres, scanFrom_goto]
    rw [if_neg (show ¬ (a.goto a.producer.pc.reserving).layout.payloadCapacity = 0 from hnonzero)]
    rfl
  have hright : a.resume e (.publish (.cpu d bytes)) =
      if a.producer.cursor = maxGeneration then
        a.goto (.terminate (.finish (.error .generationsExhausted)))
      else a.scanFrom (.publish (.cpu d bytes)) 0 := by
    simp only [resume, h.resources]
    exact if_neg hroom
  rw [hleft, hright, apply_ite reserving, reserving_scanFrom, reserving_goto a (by rintro ⟨⟩)]
  rfl

/-- The loop that closes the claim pages of an exhausted arena. -/
lemma pagesStep_reserving (hpc : a.producer.pc ≠ .idle) (hplace : a.producer.pc.Searches d bytes)
    (hpages : a.producer.pc.reserving = a.producer.pc) (e : Env) :
    a.reserving.pagesStep e a.producer.pc = (a.pagesStep e a.producer.pc).map reserving := by
  rw [reserving_eq hpc, hpages]
  generalize a.producer.pc = pc at hplace hpc hpages ⊢
  cases pc with
  | idle => exact absurd rfl hpc
  | terminate after =>
      cases hplace
      rfl
  | pages call todo after =>
      cases call with
      | signal event => exact hplace.elim
      | close =>
          cases hplace
          cases todo <;> rfl
  | paged call i todo after =>
      cases call with
      | signal event => exact hplace.elim
      | close =>
          cases hplace
          simp only [pagesStep, Option.bind_eq_bind, goto_incarnations]
          cases a.incarnations i with
          | none => rfl
          | some inc =>
              simp only [Option.bind_some]
              split_ifs <;> rfl
  | _ => cases hplace <;> rfl

/-- The producer's own step. -/
lemma producerStep_reserving (h : Searching g d bytes a) (hpc : a.producer.pc ≠ .idle)
    (hcopy : ∀ index, a.producer.pc ≠ .copy index d bytes) (e : Env) :
    a.reserving.producerStep e = (a.producerStep e).map reserving := by
  have hplace := h.place
  have hq' : a.reserving.producer.pc = a.producer.pc.reserving := rfl
  have hscans : a.producer.pc.inScan = true → a.reserving.scanStep a.producer.pc.reserving =
      (a.scanStep a.producer.pc).map reserving :=
    fun hscan => scanStep_reserving hpc hplace hscan hcopy
  have hpages : a.producer.pc.reserving = a.producer.pc → a.reserving.pagesStep e a.producer.pc =
      (a.pagesStep e a.producer.pc).map reserving :=
    fun hsame => pagesStep_reserving hpc hplace hsame e
  cases hq : a.producer.pc with
  | idle => exact absurd hq hpc
  | terminal goal =>
      rw [hq] at hplace hq'
      cases hplace
      simp only [producerStep, hq, hq', Pc.reserving, Option.map_some, Option.some.injEq]
      rw [reserving_eq hpc, apply_ite reserving]
      rfl
  | cleanup c goal =>
      rw [hq] at hplace hq'
      cases hplace
      simp only [producerStep, hq, hq', Pc.reserving]
      exact cleanupStep_reserving hq e
  | resume goal =>
      rw [hq] at hplace hq'
      cases hplace
      simp only [producerStep, hq, hq', Pc.reserving, Option.map_some, Option.some.injEq]
      exact resume_reserving h hpc e
  | scan w off =>
      rw [hq] at hplace hq' hscans
      cases hplace
      simp only [producerStep, hq, hq']
      exact hscans rfl
  | scanState w off =>
      rw [hq] at hplace hq' hscans
      cases hplace
      simp only [producerStep, hq, hq']
      exact hscans rfl
  | scanRetire w off generation =>
      rw [hq] at hplace hq' hscans
      cases hplace
      simp only [producerStep, hq, hq']
      exact hscans rfl
  | scanClaims w off generation probes =>
      rw [hq] at hplace hq' hscans
      cases hplace
      simp only [producerStep, hq, hq']
      exact hscans rfl
  | copy index d' bytes' =>
      rw [hq] at hplace
      obtain ⟨rfl, rfl⟩ := hplace
      exact absurd hq (hcopy index)
  | terminate after =>
      rw [hq] at hq' hpages
      simp only [producerStep, hq, hq', Pc.reserving]
      exact hpages rfl
  | pages call todo after =>
      rw [hq] at hq' hpages
      simp only [producerStep, hq, hq', Pc.reserving]
      exact hpages rfl
  | paged call i todo after =>
      rw [hq] at hq' hpages
      simp only [producerStep, hq, hq', Pc.reserving]
      exact hpages rfl
  | _ =>
      rw [hq] at hplace
      exact hplace.elim

/-- **`reserve` takes the steps of `publish`** until a slot is found. -/
lemma Searching.commutes (h : Searching g d bytes a) (hpc : a.producer.pc ≠ .idle)
    (hcopy : ∀ index, a.producer.pc ≠ .copy index d bytes) (hl : l.threads v) :
    a.reserving.step l = (a.step l).map reserving := by
  cases l with
  | incarnation i l => exact incarnation_reserving i l
  | producer e => exact producerStep_reserving h hpc hcopy e
  | _ => exact hl.elim

/-- The layout of the installed allocation stays. -/
lemma Acts.installed_layout (h : Ledger a) (hg : a.producer.resources = some g) (hs : a.Acts b) :
    (b.shared.maps g).layout = (a.shared.maps g).layout := by
  have books : a.Books b → (b.shared.maps g).layout = (a.shared.maps g).layout := fun hb => by
    cases hb with
    | kept hshared => rw [hshared]
    | installed layout hnone =>
        rw [hg] at hnone
        cases hnone
  cases hs with
  | collect i todo goal hd => exact books (h.collect_books hd)
  | reclaim index goal r hpc hr => exact books (h.reclaim_books (by rw [hpc]; rfl) hr goal)
  | ready index goal r hpc hr =>
      have hb := h.ready_books (by rw [hpc]; rfl) hr goal
      have hkept := onMap_layout a r.generation (fun map => { map with ready := true })
        (fun _ => rfl) g
      cases hb with
      | kept hshared => rw [hshared]; exact hkept
      | installed layout hnone => cases hnone.symm.trans hg
  | attach e holding remote hpc => exact books (h.attach_books (by rw [hpc]; rfl) e holding remote)
  | advance e hpc => exact books (h.advance_books (by rw [hpc]; rfl) e)
  | begin payloadCapacity externalBytes hpc => exact books (h.begin_books (by rw [hpc]; rfl) _ _)
  | close call i hpc => exact books (h.close_books i)
  | _ =>
      -- a store into a record or a counter of some map, or none
      first
        | rfl
        | (simp only [onMap, goto, finish, Function.update_apply]
           split_ifs with h0
           · rw [h0] <;> rfl
           · rfl)

/-- The search goes on at another place in the same maps. -/
lemma Searching.moved (h : Searching g d bytes a) {pc : Pc} (hpc : pc.Searches d bytes)
    (hidle : pc ≠ .idle)
    (hvacant : ∀ index, pc.looksAt a = some index → (a.record g index).reserved = false)
    (hlimit : pc.inScan = true → a.producer.cursor ≠ maxGeneration) :
    Searching g d bytes (a.goto pc) :=
  ⟨hpc, h.resources, h.nonzero, h.room, fun h0 => absurd h0 hidle, hvacant, hlimit⟩

/-- The search ends. -/
lemma Searching.ended (h : Searching g d bytes a) {o : Outcome}
    (ho : o = .dropped ∨ ∃ e, o = .error e) : Searching g d bytes (a.finish o) :=
  ⟨trivial, h.resources, h.nonzero, h.room, fun _ => ho, by rintro _ ⟨⟩, by rintro ⟨⟩⟩

lemma Searching.scanFrom (h : Searching g d bytes a) (hlimit : a.producer.cursor ≠ maxGeneration)
    (off : ℕ) : Searching g d bytes (a.scanFrom (.publish (.cpu d bytes)) off) := by
  by_cases hoff : off < a.layout.resources
  · have hscan : a.scanFrom (.publish (.cpu d bytes)) off =
        a.goto (.scan (.publish (.cpu d bytes)) off) := if_pos hoff
    rw [hscan]
    exact h.moved rfl (by rintro ⟨⟩) (by rintro _ ⟨⟩) fun _ => hlimit
  · have hgive : a.scanFrom (.publish (.cpu d bytes)) off = a.finish .dropped := if_neg hoff
    rw [hgive]
    exact h.ended (Or.inl rfl)

/-- The arena with a slot of the installed allocation retired. -/
def retireSlot (a : Arena) (index generation : ℕ) : Arena :=
  a.onMap a.current fun map => map.modify index fun r => { r with state := 2 * generation }

@[simp] lemma retireSlot_layout (index generation g' : ℕ) :
    ((a.retireSlot index generation).shared.maps g').layout = (a.shared.maps g').layout :=
  modify_layout a a.current index (fun r => { r with state := 2 * generation }) g'

@[simp] lemma retireSlot_scanIndex (index generation off : ℕ) :
    (a.retireSlot index generation).scanIndex off = a.scanIndex off :=
  scanIndex_onMap a a.current (fun map => map.modify index fun r =>
    { r with state := 2 * generation }) (fun _ => rfl) off

lemma record_retireSlot (index generation g' index' : ℕ) :
    (a.retireSlot index generation).record g' index' =
      if g' = a.current ∧ index' = index then
        { a.record g' index' with state := 2 * generation }
      else a.record g' index' := by
  rw [retireSlot, record_modify a a.current index (fun r => { r with state := 2 * generation }) _
    (fun _ => rfl)]
  split_ifs with h0
  · rw [h0.1, h0.2]
  · rfl

/-- The flags do not depend on the state words. -/
lemma retireSlot_reserved (index generation g' index' : ℕ) :
    ((a.retireSlot index generation).record g' index').reserved =
      (a.record g' index').reserved := by
  rw [record_retireSlot]
  split_ifs <;> rfl

/-- The slot scan of a search. -/
lemma Searching.scanStep (h : Searching g d bytes a) (hscan : a.producer.pc.inScan = true)
    (hs : a.scanStep a.producer.pc = some b) : Searching g d bytes b := by
  have hlimit := h.limit hscan
  have hvacant := h.vacant
  have hplace := h.place
  have hcurrent : a.current = g := by rw [current, h.resources]; rfl
  cases hq : a.producer.pc with
  | scan w off =>
      rw [hq] at hplace hs
      cases hplace
      simp only [Arena.scanStep, Option.some.injEq] at hs
      split_ifs at hs with hres <;> subst hs
      · exact h.scanFrom hlimit _
      · refine h.moved rfl (by rintro ⟨⟩) ?_ fun _ => hlimit
        rintro index ⟨⟩
        rw [hcurrent] at hres
        exact Bool.not_eq_true _ ▸ hres
  | scanState w off =>
      rw [hq] at hplace hs hvacant
      cases hplace
      simp only [Arena.scanStep, Option.some.injEq] at hs
      split_ifs at hs with hres <;> subst hs
      · exact h.scanFrom hlimit _
      · exact h.moved rfl (by rintro ⟨⟩) hvacant fun _ => hlimit
  | scanRetire w off generation =>
      rw [hq] at hplace hs hvacant
      cases hplace
      have hmid : ∀ pc : Pc, pc.Searches d bytes → pc ≠ .idle →
          (∀ index, pc.looksAt (a.retireSlot (a.scanIndex off) generation) = some index →
            index = a.scanIndex off) →
          Searching g d bytes ((a.retireSlot (a.scanIndex off) generation).goto pc) := by
        intro pc hpc hidle hlooks
        refine ⟨hpc, h.resources, ?_, ?_, fun h0 => absurd h0 hidle, ?_, fun _ => hlimit⟩
        · rw [goto_shared, retireSlot_layout]
          exact h.nonzero
        · rw [goto_shared, retireSlot_layout]
          exact h.room
        · intro index hindex
          rw [hlooks index hindex]
          exact (retireSlot_reserved _ _ _ _).trans (hvacant _ rfl)
      simp only [Arena.scanStep, Option.some.injEq] at hs
      split_ifs at hs with hzero <;> subst hs
      · refine hmid _ ⟨rfl, rfl⟩ (by rintro ⟨⟩) ?_
        rintro index ⟨⟩
        exact retireSlot_scanIndex _ _ off
      · refine hmid _ rfl (by rintro ⟨⟩) ?_
        rintro index ⟨⟩
        exact retireSlot_scanIndex _ _ off
  | scanClaims w off generation probes =>
      rw [hq] at hplace hs hvacant
      cases hplace
      cases probes with
      | nil =>
          simp only [Arena.scanStep, Option.some.injEq] at hs
          subst hs
          exact h.moved ⟨rfl, rfl⟩ (by rintro ⟨⟩) hvacant fun _ => hlimit
      | cons probe probes =>
          simp only [Arena.scanStep, Option.bind_eq_bind, Option.bind_eq_some_iff] at hs
          obtain ⟨inc, -, hs⟩ := hs
          cases hs
          split_ifs
          · exact h.scanFrom hlimit _
          · exact h.moved rfl (by rintro ⟨⟩) hvacant fun _ => hlimit
  | copy index d' bytes' =>
      rw [hq] at hs
      cases hs
  | prepare off =>
      rw [hq] at hs
      cases hs
  | _ =>
      rw [hq] at hscan
      cases hscan

/-- `poll_cleanup` returns with an error only when a retired pool cannot be asked. -/
lemma cleanupStep_outcome {c : CleanupPc} {goal : Goal} {e : Env}
    (hs : a.cleanupStep e goal c = some b) (hidle : b.producer.pc = .idle) :
    b.producer.outcome = .error .storage := by
  have hcollect : ∀ i todo, (a.collect i todo goal).producer.pc ≠ .idle := by
    intro i todo h0
    rw [collect] at h0
    split at h0
    · split at h0 <;> cases h0
    · cases h0
  have hclaims : ∀ i k todo, (a.claimsFrom i k todo goal).producer.pc ≠ .idle := by
    intro i k todo h0
    rw [claimsFrom] at h0
    split_ifs at h0
    · exact hcollect i todo h0
    · cases h0
  have hreclaim : ∀ (a : Arena) index r, (a.reclaim index r goal).producer.pc ≠ .idle := by
    intro a index r h0
    simp only [reclaim] at h0
    split at h0 <;> cases h0
  cases c with
  | observers todo =>
      cases todo with
      | nil =>
          cases hs
          cases hidle
      | cons i todo =>
          simp only [cleanupStep, Option.bind_eq_bind, Option.bind_eq_some_iff] at hs
          obtain ⟨inc, -, hs⟩ := hs
          split_ifs at hs
          cases hs
          cases hidle
  | polling i todo =>
      simp only [cleanupStep, Option.bind_eq_bind, Option.bind_eq_some_iff] at hs
      obtain ⟨inc, -, hs⟩ := hs
      split_ifs at hs
      cases hs
      cases hidle
  | quiescent todo =>
      cases todo with
      | nil =>
          cases hs
          cases hidle
      | cons i todo =>
          simp only [cleanupStep, Option.bind_eq_bind, Option.bind_eq_some_iff] at hs
          obtain ⟨inc, -, hs⟩ := hs
          cases hs
          cases hidle
  | mapping i m todo =>
      simp only [cleanupStep, Option.bind_eq_bind, Option.bind_eq_some_iff] at hs
      obtain ⟨inc, -, hs⟩ := hs
      cases hs
      split_ifs at hidle
      · cases hidle
      · cases hidle
      · exact absurd hidle (hclaims i 0 todo)
  | claim i k todo =>
      simp only [cleanupStep, Option.bind_eq_bind, Option.bind_eq_some_iff] at hs
      obtain ⟨inc, -, hs⟩ := hs
      cases hs
      split_ifs at hidle
      · cases hidle
      · exact absurd hidle (hclaims i (k + 1) todo)
  | remove i todo =>
      simp only [cleanupStep, Option.bind_eq_bind, Option.bind_eq_some_iff] at hs
      obtain ⟨inc, -, hs⟩ := hs
      split_ifs at hs
      cases hs
      cases hidle
  | retired index =>
      simp only [cleanupStep] at hs
      split at hs
      · cases hs
        cases hidle
      · cases hs
        cases hidle
  | probe index probes =>
      cases probes with
      | nil =>
          cases hs
          cases hidle
      | cons probe probes =>
          simp only [cleanupStep, Option.bind_eq_bind, Option.bind_eq_some_iff] at hs
          obtain ⟨r, -, hs⟩ := hs
          cases probe <;>
          · simp only [Option.bind_eq_some_iff] at hs
            obtain ⟨inc, -, hs⟩ := hs
            cases hs
            cases hidle
  | count index =>
      simp only [cleanupStep, Option.bind_eq_bind, Option.bind_eq_some_iff] at hs
      obtain ⟨r, -, hs⟩ := hs
      cases hs
      split_ifs at hidle
      · cases hidle
      · cases hidle
      · exact absurd hidle (hreclaim a index r.generation)
  | ready index =>
      simp only [cleanupStep, Option.bind_eq_bind, Option.bind_eq_some_iff] at hs
      obtain ⟨r, -, hs⟩ := hs
      cases hs
      split_ifs at hidle ⊢
      · rfl
      · cases hidle
      · exact absurd hidle (hreclaim _ index r.generation)

/-- **One step of the search.** -/
lemma Searching.step (h : Searching g d bytes a) (hl : Ledger a) (hpc : a.producer.pc ≠ .idle)
    (hcopy : ∀ index, a.producer.pc ≠ .copy index d bytes) (ht : l.threads v)
    (hs : a.step l = some b) : Searching g d bytes b := by
  cases l with
  | incarnation i l =>
      simp only [Arena.step, Option.bind_eq_bind, Option.bind_eq_some_iff] at hs
      obtain ⟨inc, -, inc', -, heq⟩ := hs
      cases heq
      exact ⟨h.place, h.resources, h.nonzero, h.room, h.outcome, h.vacant, h.limit⟩
  | producer e =>
      have hacts := acts_of_step hs
      have hplace := h.place
      have hlayout := hacts.installed_layout hl h.resources
      simp only [Arena.step, producerStep] at hs
      cases hq : a.producer.pc with
      | idle => exact absurd hq hpc
      | terminal goal =>
          rw [hq] at hplace hs
          cases hplace
          simp only [Option.some.injEq] at hs
          split_ifs at hs <;> subst hs
          · exact h.ended (Or.inr ⟨_, rfl⟩)
          · exact ⟨rfl, h.resources, h.nonzero, h.room, by rintro ⟨⟩, by rintro _ ⟨⟩, by rintro ⟨⟩⟩
      | cleanup c goal =>
          rw [hq] at hplace
          cases hplace
          obtain ⟨-, hfields, -⟩ := hacts.keeps hl hq
          have hres : b.producer.resources = some g := hfields.2.1.trans h.resources
          have hnonzero : (b.shared.maps g).layout.payloadCapacity ≠ 0 := hlayout ▸ h.nonzero
          have hroom : bytes.length ≤ (b.shared.maps g).layout.payloadCapacity := hlayout ▸ h.room
          rcases (hacts.cleaned hl hq).2 with ⟨c', hc'⟩ | hc' | hc'
          · refine ⟨?_, hres, hnonzero, hroom, ?_, ?_, ?_⟩ <;> rw [hc']
            · rfl
            · rintro ⟨⟩
            · rintro _ ⟨⟩
            · rintro ⟨⟩
          · refine ⟨?_, hres, hnonzero, hroom, ?_, ?_, ?_⟩ <;> rw [hc']
            · rfl
            · rintro ⟨⟩
            · rintro _ ⟨⟩
            · rintro ⟨⟩
          · rw [hq] at hs
            have hout := cleanupStep_outcome hs hc'
            refine ⟨?_, hres, hnonzero, hroom, fun _ => Or.inr ⟨_, hout⟩, ?_, ?_⟩ <;> rw [hc']
            · trivial
            · rintro _ ⟨⟩
            · rintro ⟨⟩
      | resume goal =>
          rw [hq] at hplace hs
          cases hplace
          have hcurrent : a.current = g := by rw [current, h.resources]; rfl
          have hroom : ¬ a.layout.payloadCapacity < bytes.length := by
            rw [layout, hcurrent]
            exact Nat.not_lt.mpr h.room
          simp only [Option.some.injEq, resume, h.resources, Source.len, hroom, if_false] at hs
          split_ifs at hs with hmax <;> subst hs
          · exact h.moved rfl (by rintro ⟨⟩) (by rintro _ ⟨⟩) (by rintro ⟨⟩)
          · exact h.scanFrom hmax 0
      | scan | scanState | scanRetire | scanClaims =>
          rw [hq] at hs
          exact h.scanStep (by rw [hq]; rfl) (by rw [hq]; exact hs)
      | copy index d' bytes' =>
          rw [hq] at hplace
          obtain ⟨rfl, rfl⟩ := hplace
          exact absurd hq (hcopy index)
      | terminate after =>
          rw [hq] at hplace hs
          cases hplace
          simp only [pagesStep, Option.some.injEq] at hs
          subst hs
          exact ⟨rfl, h.resources, h.nonzero, h.room, by rintro ⟨⟩, by rintro _ ⟨⟩, by rintro ⟨⟩⟩
      | pages call todo after =>
          rw [hq] at hplace hs
          cases call with
          | signal event => exact hplace.elim
          | close =>
              cases hplace
              cases todo with
              | nil =>
                  simp only [pagesStep, Option.some.injEq] at hs
                  subst hs
                  exact h.ended (Or.inr ⟨_, rfl⟩)
              | cons i todo =>
                  simp only [pagesStep, Option.some.injEq] at hs
                  subst hs
                  exact ⟨rfl, h.resources, h.nonzero, h.room, by rintro ⟨⟩, by rintro _ ⟨⟩,
                    by rintro ⟨⟩⟩
      | paged call i todo after =>
          rw [hq] at hplace hs
          cases call with
          | signal event => exact hplace.elim
          | close =>
              cases hplace
              simp only [pagesStep, Option.bind_eq_bind, Option.bind_eq_some_iff] at hs
              obtain ⟨inc, -, hs⟩ := hs
              split_ifs at hs with hhost hfault
              · exact absurd rfl hfault.1
              · cases hs
                exact h.moved rfl (by rintro ⟨⟩) (by rintro _ ⟨⟩) (by rintro ⟨⟩)
      | _ =>
          rw [hq] at hplace
          exact hplace.elim
  | _ => exact ht.elim

end Arena

/-! ### Publishing the slot -/

/-- What follows in `commit` when this follows in `publish`. -/
def After.committing (g index : ℕ) : After → After
  | .finish o => .release g index o
  | after => after

/-- Where `commit` is when `publish` is here. It has still to drop the reservation when
`publish` has returned. -/
def Pc.committing (g index : ℕ) (o : Outcome) : Pc → Pc
  | .idle => .release g index o
  | .describe p after => .describe p (after.committing g index)
  | .store p after => .store p (after.committing g index)
  | .ring p after => .ring p (after.committing g index)
  | .latest p after => .latest p (after.committing g index)
  | .pages call todo after => .pages call todo (after.committing g index)
  | .paged call i todo after => .paged call i todo (after.committing g index)
  | pc => pc

/-- `publish` has copied into the slot, and publishes it. -/
def Pc.Posts (g index : ℕ) : Pc → Prop
  | .idle => True
  | .describe p after => (p.generation = g ∧ p.index = index) ∧ ∃ o, after = .finish o
  | .store p after => (p.generation = g ∧ p.index = index) ∧ ∃ o, after = .finish o
  | .ring p after => (p.generation = g ∧ p.index = index) ∧ ∃ o, after = .finish o
  | .latest p after => (p.generation = g ∧ p.index = index) ∧ ∃ o, after = .finish o
  | .pages (.signal _) _ after => ∃ o, after = .finish o
  | .paged (.signal _) _ _ after => ∃ o, after = .finish o
  | _ => False

namespace Arena

variable {s t u a b : Arena} {v g index : ℕ} {d : FrameDescriptor} {bytes : List UInt8} {l : Label}

/-- Change one record. -/
def onRecord (s : Arena) (g index : ℕ) (f : Record → Record) : Arena :=
  s.onMap g fun map => map.modify index f

/-- The slot of a reservation that is being committed. -/
def flagged (r : Record) : Record := { r with reserved := true, reservation := .committing }

/-- Where `commit` is when `publish` is here. -/
def committing (g index : ℕ) (a : Arena) : Arena :=
  { a.onRecord g index flagged with
    producer := { a.producer with
      pc := a.producer.pc.committing g index a.producer.outcome
      outcome := .reserved index } }

/-- **`publish` publishes its slot**, which no reservation holds. -/
structure Posting (g index : ℕ) (a : Arena) : Prop where
  place : a.producer.pc.Posts g index
  reserved : (a.record g index).reserved = false
  reservation : (a.record g index).reservation = .absent

lemma onRecord_onRecord (a : Arena) (g index : ℕ) (f h : Record → Record) :
    (a.onRecord g index f).onRecord g index h = a.onRecord g index (h ∘ f) := by
  simp only [onRecord, onMap, ResourceMap.modify, Function.update_self, Function.update_idem,
    Function.comp]

lemma committing_onRecord (a : Arena) (g index : ℕ) (f : Record → Record)
    (hf : ∀ r, flagged (f r) = f (flagged r)) :
    (a.onRecord g index f).committing g index = (a.committing g index).onRecord g index f := by
  have hcomm : flagged ∘ f = f ∘ flagged := funext hf
  have hleft : ((a.onRecord g index f).onRecord g index flagged).shared =
      ((a.onRecord g index flagged).onRecord g index f).shared := by
    rw [onRecord_onRecord, onRecord_onRecord, hcomm]
  have hright : ((a.committing g index).onRecord g index f).shared =
      ((a.onRecord g index flagged).onRecord g index f).shared := rfl
  have hshared := hleft.trans hright.symm
  simp only [committing] at hshared ⊢
  rw [hshared]
  rfl

lemma committing_goto (a : Arena) (pc : Pc) :
    (a.goto pc).committing g index =
      (a.committing g index).goto (pc.committing g index a.producer.outcome) := rfl

lemma committing_layout (a : Arena) (g index g' : ℕ) :
    ((a.committing g index).shared.maps g').layout = (a.shared.maps g').layout :=
  modify_layout a g index flagged g'

/-- The publication of the slot. -/
lemma publishStep_committing (hplace : a.producer.pc.Posts g index)
    (hpub : ∀ call todo after, a.producer.pc ≠ .pages call todo after)
    (hpub' : ∀ call i todo after, a.producer.pc ≠ .paged call i todo after)
    (hidle : a.producer.pc ≠ .idle) (e : Env) :
    (a.committing g index).publishStep e
        (a.producer.pc.committing g index a.producer.outcome) =
      (a.publishStep e a.producer.pc).map (committing g index) := by
  generalize hq : a.producer.pc = pc at hplace hpub hpub' hidle ⊢
  cases pc with
  | idle => exact absurd rfl hidle
  | describe p after =>
      obtain ⟨⟨rfl, rfl⟩, o, rfl⟩ := hplace
      simp only [publishStep, Pc.committing, Option.map_some, Option.some.injEq, committing_goto]
      have hrec := (committing_onRecord a p.generation p.index
        (fun r => { r with descriptor := p.descriptor }) fun _ => rfl).symm
      exact congrArg (fun x : Arena =>
        x.goto (.store p (.release p.generation p.index o))) hrec
  | store p after =>
      obtain ⟨⟨rfl, rfl⟩, o, rfl⟩ := hplace
      simp only [publishStep, Pc.committing, Option.map_some, Option.some.injEq, committing_goto]
      have hrec := (committing_onRecord a p.generation p.index
        (fun r => { r with state := 2 * p.descriptor.cursor + 1 }) fun _ => rfl).symm
      exact congrArg (fun x : Arena =>
        { x with log := Function.update x.log p.descriptor.cursor (some p) }.goto
          (.ring p (.release p.generation p.index o))) hrec
  | ring p after =>
      obtain ⟨⟨rfl, rfl⟩, o, rfl⟩ := hplace
      rfl
  | latest p after =>
      obtain ⟨⟨rfl, rfl⟩, o, rfl⟩ := hplace
      simp only [publishStep, Pc.committing, Option.map_some, Option.some.injEq]
      have hlayout := committing_layout a p.generation p.index p.generation
      simp only [onControl_maps, hlayout]
      rfl
  | pages call todo after => exact absurd rfl (hpub call todo after)
  | paged call i todo after => exact absurd rfl (hpub' call i todo after)
  | _ => exact hplace.elim

/-- The wakes. -/
lemma pagesStep_committing {call : PageCall} {todo : List ℕ} {o : Outcome} (e : Env) :
    (a.committing g index).pagesStep e (.pages call todo (.release g index o)) =
      (a.pagesStep e (.pages call todo (.finish o))).map (committing g index) := by
  cases todo with
  | nil => rfl
  | cons i todo => rfl

lemma pagedStep_committing {call : PageCall} {i : ℕ} {todo : List ℕ} {o : Outcome} (e : Env) :
    (a.committing g index).pagesStep e (.paged call i todo (.release g index o)) =
      (a.pagesStep e (.paged call i todo (.finish o))).map (committing g index) := by
  have hinc : (a.committing g index).incarnations = a.incarnations := rfl
  simp only [pagesStep, Option.bind_eq_bind, hinc]
  cases a.incarnations i with
  | none => rfl
  | some inc =>
      simp only [Option.bind_some]
      split_ifs <;> rfl

/-- **`commit` takes the steps of `publish`** once the slot is filled. -/
lemma Posting.commutes (h : Posting g index a) (hidle : a.producer.pc ≠ .idle)
    (hl : l.threads v) :
    (a.committing g index).step l = (a.step l).map (committing g index) := by
  cases l with
  | incarnation i l =>
      have hinc : (a.committing g index).incarnations = a.incarnations := rfl
      cases l with
      | host e =>
          simp only [step, Option.bind_eq_bind, hinc]
          cases a.incarnations i with
          | none => rfl
          | some inc =>
              simp only [Option.bind_some, Incarnation.step]
              cases inc.hostStep e <;> rfl
      | observe e =>
          simp only [step, Option.bind_eq_bind, hinc]
          cases a.incarnations i with
          | none => rfl
          | some inc =>
              simp only [Option.bind_some, Incarnation.step]
              have hnative : (a.committing g index).shared.native = a.shared.native := rfl
              rw [hnative]
              cases inc.observeStep a.shared.native e <;> rfl
      | _ => exact hl.elim
  | producer e =>
      have hplace := h.place
      have hq' : (a.committing g index).producer.pc =
          a.producer.pc.committing g index a.producer.outcome := rfl
      have hpublish := fun h1 h2 => publishStep_committing hplace h1 h2 hidle e
      simp only [step, producerStep, hq']
      cases hq : a.producer.pc with
      | idle => exact absurd hq hidle
      | describe p after =>
          rw [hq] at hpublish
          exact hpublish (by rintro _ _ _ ⟨⟩) (by rintro _ _ _ _ ⟨⟩)
      | store p after =>
          rw [hq] at hpublish
          exact hpublish (by rintro _ _ _ ⟨⟩) (by rintro _ _ _ _ ⟨⟩)
      | ring p after =>
          rw [hq] at hpublish
          exact hpublish (by rintro _ _ _ ⟨⟩) (by rintro _ _ _ _ ⟨⟩)
      | latest p after =>
          rw [hq] at hpublish
          exact hpublish (by rintro _ _ _ ⟨⟩) (by rintro _ _ _ _ ⟨⟩)
      | pages call todo after =>
          rw [hq] at hplace
          cases call with
          | close => exact hplace.elim
          | signal event =>
              obtain ⟨o, rfl⟩ := hplace
              exact pagesStep_committing e
      | paged call i todo after =>
          rw [hq] at hplace
          cases call with
          | close => exact hplace.elim
          | signal event =>
              obtain ⟨o, rfl⟩ := hplace
              exact pagedStep_committing e
      | _ =>
          rw [hq] at hplace
          exact hplace.elim
  | _ => exact hl.elim

lemma record_onRecord (a : Arena) (g index : ℕ) (f : Record → Record) (g' index' : ℕ) :
    (a.onRecord g index f).record g' index' =
      if g' = g ∧ index' = index then f (a.record g index) else a.record g' index' :=
  record_modify a g index f _ (fun _ => rfl) g' index'

/-- The publication goes on in the same maps. -/
lemma Posting.moved (h : Posting g index a) (hb : b.shared.maps = a.shared.maps)
    (hpc : b.producer.pc.Posts g index) : Posting g index b := by
  have hrec : b.record g index = a.record g index := by rw [record, record, hb]
  exact ⟨hpc, by rw [hrec]; exact h.reserved, by rw [hrec]; exact h.reservation⟩

/-- The publication stores into its slot. -/
lemma Posting.stored (h : Posting g index a) {f : Record → Record}
    (hf : ∀ r, (f r).reserved = r.reserved ∧ (f r).reservation = r.reservation)
    (hb : b.shared.maps = (a.onRecord g index f).shared.maps)
    (hpc : b.producer.pc.Posts g index) : Posting g index b := by
  have hrec : b.record g index = f (a.record g index) := by
    have hb' : b.record g index = (a.onRecord g index f).record g index := by
      rw [record, record, hb]
    rw [hb', record_onRecord, if_pos ⟨rfl, rfl⟩]
  refine ⟨hpc, ?_, ?_⟩
  · rw [hrec, (hf _).1]
    exact h.reserved
  · rw [hrec, (hf _).2]
    exact h.reservation

/-- **One step of the publication.** -/
lemma Posting.step (h : Posting g index a) (hidle : a.producer.pc ≠ .idle) (ht : l.threads v)
    (hs : a.step l = some b) : Posting g index b := by
  cases l with
  | incarnation i l =>
      simp only [Arena.step, Option.bind_eq_bind, Option.bind_eq_some_iff] at hs
      obtain ⟨inc, -, inc', -, heq⟩ := hs
      cases heq
      exact h.moved rfl h.place
  | producer e =>
      have hplace := h.place
      simp only [Arena.step, producerStep] at hs
      cases hq : a.producer.pc with
      | idle => exact absurd hq hidle
      | describe p after =>
          rw [hq] at hplace hs
          obtain ⟨⟨rfl, rfl⟩, o, rfl⟩ := hplace
          cases hs
          exact h.stored (f := fun r => { r with descriptor := p.descriptor })
            (fun _ => ⟨rfl, rfl⟩) rfl ⟨⟨rfl, rfl⟩, o, rfl⟩
      | store p after =>
          rw [hq] at hplace hs
          obtain ⟨⟨rfl, rfl⟩, o, rfl⟩ := hplace
          cases hs
          exact h.stored (f := fun r => { r with state := 2 * p.descriptor.cursor + 1 })
            (fun _ => ⟨rfl, rfl⟩) rfl ⟨⟨rfl, rfl⟩, o, rfl⟩
      | ring p after =>
          rw [hq] at hplace hs
          cases hs
          exact h.moved rfl hplace
      | latest p after =>
          rw [hq] at hplace hs
          cases hs
          exact h.moved rfl hplace.2
      | pages call todo after =>
          rw [hq] at hplace hs
          cases call with
          | close => exact hplace.elim
          | signal event =>
              obtain ⟨o, rfl⟩ := hplace
              cases todo with
              | nil =>
                  cases hs
                  exact h.moved rfl trivial
              | cons i todo =>
                  cases hs
                  exact h.moved rfl ⟨o, rfl⟩
      | paged call i todo after =>
          rw [hq] at hplace hs
          cases call with
          | close => exact hplace.elim
          | signal event =>
              obtain ⟨o, rfl⟩ := hplace
              simp only [pagesStep, Option.bind_eq_bind, Option.bind_eq_some_iff] at hs
              obtain ⟨inc, -, hs⟩ := hs
              split_ifs at hs <;> cases hs
              · exact h.moved rfl trivial
              · exact h.moved rfl ⟨o, rfl⟩
      | _ =>
          rw [hq] at hplace
          exact hplace.elim
  | _ => exact ht.elim

lemma onRecord_id (a : Arena) {f : Record → Record} (hf : f (a.record g index) = a.record g index) :
    a.onRecord g index f = a := by
  have hmap : ((a.shared.maps g).modify index f) = a.shared.maps g := by
    have hf' : f ((a.shared.maps g).records index) = (a.shared.maps g).records index := hf
    rw [ResourceMap.modify, hf', Function.update_eq_self]
  rw [onRecord, onMap, hmap, Function.update_eq_self]

/-- **The last step of `commit`**: the reservation is dropped. -/
lemma Posting.released (h : Posting g index a) (hidle : a.producer.pc = .idle) (e : Env) :
    (a.committing g index).step (.producer e) = some a := by
  have hpc : (a.committing g index).producer.pc = .release g index a.producer.outcome := by
    have hpc' : (a.committing g index).producer.pc =
        a.producer.pc.committing g index a.producer.outcome := rfl
    rw [hpc', hidle]
    rfl
  have hshared : ((a.onRecord g index flagged).onRecord g index fun r =>
      { r with reserved := false, reservation := .absent }) = a := by
    rw [onRecord_onRecord]
    refine onRecord_id a ?_
    have hrecord : a.record g index = { a.record g index with
        reserved := (a.record g index).reserved
        reservation := (a.record g index).reservation } := rfl
    rw [h.reserved, h.reservation] at hrecord
    exact hrecord.symm
  have hdrop : (a.committing g index).step (.producer e) = some
      { (a.onRecord g index flagged).onRecord g index fun r =>
          { r with reserved := false, reservation := .absent } with
        producer := { a.producer with pc := .idle, outcome := a.producer.outcome } } := by
    simp only [Arena.step, producerStep, hpc, publishStep]
    rfl
  rw [hdrop, hshared, ← hidle]

/-! ### Filling the slot -/

/-- The descriptor that `commit` is called with. -/
def lengthened (d : FrameDescriptor) (bytes : List UInt8) : FrameDescriptor :=
  { d with payloadLen := bytes.length }

/-- The slot with the bytes written over its head. -/
def overwritten (bytes : List UInt8) (r : Record) : Record :=
  { r with payload := bytes ++ r.payload.drop bytes.length }

/-- `commit` has been called with the slot that `publish` is about to copy into. -/
def pending (g index : ℕ) (d : FrameDescriptor) (bytes : List UInt8) (a : Arena) : Arena :=
  { a.onRecord g index (flagged ∘ overwritten bytes) with
    producer := { a.producer with
      pc := .commit g index (lengthened d bytes)
      outcome := .reserved index } }

/-- `reserve` has flagged the slot and returned. -/
def reservedSlot (g index : ℕ) (a : Arena) : Arena :=
  (a.onRecord g index fun r => { r with reserved := true, reservation := .held }).finish
    (.reserved index)

/-- **`publish` is about to copy**: what holds of its slot. -/
structure Filling (g index : ℕ) (d : FrameDescriptor) (bytes : List UInt8) (a : Arena) : Prop
    extends Searching g d bytes a where
  copy : a.producer.pc = .copy index d bytes
  open_ : a.shared.control.terminal = 0
  unreserved : (a.record g index).reservation = .absent
  sized : bytes.length ≤ (a.record g index).payload.length

lemma Filling.current (h : Filling g index d bytes a) : a.current = g := by
  rw [Arena.current, h.resources]
  rfl

lemma Filling.unflagged (h : Filling g index d bytes a) :
    (a.record g index).reserved = false := h.vacant index (by rw [h.copy]; rfl)

/-- The last step of `reserve`. -/
lemma Filling.reserve (h : Filling g index d bytes a) (e : Env) :
    a.reserving.step (.producer e) = some (a.reservedSlot g index) := by
  have hidle : a.producer.pc ≠ .idle := by rw [h.copy]; rintro ⟨⟩
  rw [reserving_eq hidle, h.copy]
  have hcurrent : (a.goto (Pc.copy index d bytes).reserving).current = g := h.current
  simp only [Arena.step, producerStep, goto, Pc.reserving, scanStep, Option.some.injEq]
  rw [← hcurrent]
  rfl

/-- The holder writes the bytes. -/
lemma Filling.write (h : Filling g index d bytes a) :
    (a.reservedSlot g index).step (.write g index
        (bytes ++ ((a.reservedSlot g index).record g index).payload.drop bytes.length)) =
      some ((a.onRecord g index fun r => { overwritten bytes r with
        reserved := true, reservation := .held }).finish (.reserved index)) := by
  have hrec : ((a.reservedSlot g index).shared.maps g).records index =
      { a.record g index with reserved := true, reservation := .held } := by
    have hflag := record_onRecord a g index
      (fun r => { r with reserved := true, reservation := .held }) g index
    rw [if_pos ⟨rfl, rfl⟩] at hflag
    exact hflag
  have hlen : (bytes ++ (a.record g index).payload.drop bytes.length).length =
      (a.record g index).payload.length := by
    have hsized := h.sized
    rw [List.length_append, List.length_drop]
    omega
  have hbytes : ((a.reservedSlot g index).record g index).payload =
      (a.record g index).payload := (congrArg Record.payload hrec).trans rfl
  rw [hbytes]
  simp only [Arena.step, hrec, hlen, and_self, if_true, Option.some.injEq]
  have htwice := onRecord_onRecord a g index
    (fun r => { r with reserved := true, reservation := .held })
    (fun r => { r with payload := bytes ++ (a.record g index).payload.drop bytes.length })
  have hsame : ∀ (f h : Record → Record), f (a.record g index) = h (a.record g index) →
      a.onRecord g index f = a.onRecord g index h := by
    intro f h hfh
    have hfh' : f ((a.shared.maps g).records index) = h ((a.shared.maps g).records index) := hfh
    simp only [onRecord, onMap, ResourceMap.modify, hfh']
  have hwritten := htwice.trans (hsame _ (fun r => { overwritten bytes r with
    reserved := true, reservation := .held }) rfl)
  exact congrArg (fun x : Arena => x.finish (.reserved index)) hwritten

/-- `commit` is called. -/
lemma Filling.commit (a : Arena) (g index : ℕ) (d : FrameDescriptor) (bytes : List UInt8) :
    ((a.onRecord g index fun r => { overwritten bytes r with
        reserved := true, reservation := .held }).finish (.reserved index)).step
          (.call (.commit g index (lengthened d bytes))) =
      some (a.pending g index d bytes) := by
  have hrec : (((a.onRecord g index fun r => { overwritten bytes r with
      reserved := true, reservation := .held }).finish (.reserved index)).shared.maps g).records
        index = { overwritten bytes (a.record g index) with
          reserved := true, reservation := .held } := by
    have hflag := record_onRecord a g index (fun r => { overwritten bytes r with
      reserved := true, reservation := .held }) g index
    rw [if_pos ⟨rfl, rfl⟩] at hflag
    exact hflag
  have hidle : ((a.onRecord g index fun r => { overwritten bytes r with
      reserved := true, reservation := .held }).finish (.reserved index)).producer.pc = .idle := rfl
  rw [Arena.step, if_pos hidle]
  simp only [begin, hrec, if_true, Option.some.injEq]
  have htwice := onRecord_onRecord a g index (fun r => { overwritten bytes r with
    reserved := true, reservation := .held }) (fun r => { r with reservation := .committing })
  exact congrArg (fun x : Arena => { x with producer := { a.producer with
    pc := .commit g index (lengthened d bytes), outcome := .reserved index } }) htwice

/-- The copy of `publish`. -/
lemma Filling.copied (h : Filling g index d bytes a) (e : Env) :
    a.step (.producer e) = some ((a.onRecord g index (overwritten bytes)).goto
      (.describe (a.publication index d bytes e.value)
        (.finish (.published (a.publication index d bytes e.value).descriptor.cursor)))) := by
  have hcurrent := h.current
  simp only [Arena.step, producerStep, h.copy, publishStep, Option.some.injEq]
  rw [hcurrent]
  rfl

/-- The first step of `commit`. -/
lemma Filling.committed (h : Filling g index d bytes a) (e : Env) :
    (a.pending g index d bytes).step (.producer e) =
      (a.step (.producer e)).map (committing g index) := by
  rw [h.copied e]
  have hlayout : ((a.pending g index d bytes).shared.maps g).layout = (a.shared.maps g).layout :=
    modify_layout a g index (flagged ∘ overwritten bytes) g
  have hrec : ((a.pending g index d bytes).shared.maps g).records index =
      flagged (overwritten bytes (a.record g index)) := by
    have hflag := record_onRecord a g index (flagged ∘ overwritten bytes) g index
    rw [if_pos ⟨rfl, rfl⟩] at hflag
    exact hflag
  have hroom : ¬ (a.shared.maps g).layout.payloadCapacity < bytes.length :=
    Nat.not_lt.mpr h.room
  have hlimit : a.producer.cursor ≠ maxGeneration := h.limit (by rw [h.copy]; rfl)
  have hpublication : (a.pending g index d bytes).committed g index (lengthened d bytes) e.value =
      a.publication index d bytes e.value := by
    have hcurrent := h.current
    simp only [Arena.committed, publication, hrec, hlayout, layout, hcurrent, flagged, overwritten,
      lengthened, List.take_left]
    rfl
  have hstep : (a.pending g index d bytes).step (.producer e) =
      some ((a.pending g index d bytes).goto
        (.describe (a.publication index d bytes e.value)
          (.release g index
            (.published (a.publication index d bytes e.value).descriptor.cursor)))) := by
    have hpc : (a.pending g index d bytes).producer.pc =
        .commit g index (lengthened d bytes) := rfl
    have hterminal : ¬ (a.pending g index d bytes).shared.control.terminal ≠ 0 :=
      fun h0 => h0 h.open_
    have hres : ¬ (a.pending g index d bytes).producer.resources ≠ some g :=
      fun h0 => h0 h.resources
    have hcap : ¬ ((a.pending g index d bytes).shared.maps g).layout.payloadCapacity <
        (lengthened d bytes).payloadLen := by
      rw [hlayout]
      exact hroom
    have hcursor : ¬ (a.pending g index d bytes).producer.cursor = maxGeneration := hlimit
    simp only [Arena.step, producerStep, hpc, publishStep, if_neg hterminal, if_neg hres,
      if_neg hcap, if_neg hcursor, hpublication]
  rw [hstep, Option.map_some, committing_goto]
  have htwice := onRecord_onRecord a g index (overwritten bytes) flagged
  refine congrArg some ?_
  exact congrArg (fun x : Arena => { x with producer := { a.producer with
    pc := .describe (a.publication index d bytes e.value) (.release g index
      (.published (a.publication index d bytes e.value).descriptor.cursor))
    outcome := .reserved index } }) htwice.symm

/-- The slot has been copied into. -/
lemma Filling.posting (h : Filling g index d bytes a) {e : Env}
    (hs : a.step (.producer e) = some b) : Posting g index b := by
  rw [h.copied e, Option.some.injEq] at hs
  have hrec : b.record g index = overwritten bytes (a.record g index) := by
    have hover := record_onRecord a g index (overwritten bytes) g index
    rw [if_pos ⟨rfl, rfl⟩] at hover
    rw [← hs]
    exact hover
  refine ⟨?_, ?_, ?_⟩
  · rw [← hs]
    exact ⟨⟨h.current, rfl⟩, _, rfl⟩
  · rw [hrec]
    exact h.unflagged
  · rw [hrec]
    exact h.unreserved

/-- What holds of the slot that the scan has found. -/
lemma Searching.filling (h : Searching g d bytes a) (hr : Reachable a)
    (hpc : a.producer.pc = .copy index d bytes) : Filling g index d bytes a := by
  have hvacant := h.vacant index (by rw [hpc]; rfl)
  refine { h with copy := hpc, open_ := ?_, unreserved := ?_, sized := ?_ }
  · by_contra hne
    have hended := hr.stopped.ended hne
    rw [hpc] at hended
    exact hended
  · by_contra hne
    rw [hr.exclusive.flagged g index hne] at hvacant
    cases hvacant
  · rw [hr.sized.bytes g index h.nonzero]
    exact h.room

/-! ### The two ways -/

/-- **`publish`** has run alone, and returned. -/
def Copies (v : ℕ) (d : FrameDescriptor) (bytes : List UInt8) (s t : Arena) : Prop :=
  ∃ t₁, s.step (.call (.publish (.cpu d bytes))) = some t₁ ∧ Reaches step (Alone v) t₁ t ∧
    t.producer.pc = .idle

/-- `reserve` has run alone, and returned. -/
def Reserves (v : ℕ) (s t : Arena) : Prop :=
  ∃ t₁, s.step (.call .reserve) = some t₁ ∧ Reaches step (Alone v) t₁ t ∧
    t.producer.pc = .idle

/-- The bytes are written into the slot and `commit` has run alone, and returned. -/
def Commits (v g index : ℕ) (d : FrameDescriptor) (bytes : List UInt8) (s t : Arena) : Prop :=
  ∃ t₃ t₄, s.step (.write g index (bytes ++ (s.record g index).payload.drop bytes.length)) =
      some t₃ ∧
    t₃.step (.call (.commit g index (lengthened d bytes))) = some t₄ ∧
    Reaches step (Alone v) t₄ t ∧ t.producer.pc = .idle

/-- **`reserve`, and `commit` if there is a slot.** -/
def InPlace (v g : ℕ) (d : FrameDescriptor) (bytes : List UInt8) (s t : Arena) : Prop :=
  ∃ t₂, Reserves v s t₂ ∧
    ((∃ index, t₂.producer.outcome = .reserved index ∧ Commits v g index d bytes t₂ t) ∨
      (∀ index, t₂.producer.outcome ≠ .reserved index) ∧
        t = t₂.finish t₂.producer.outcome.publishing)

/-- `reserve` waits where `publish` waits. -/
lemma reserving_same (pc : Pc) : (pc.reserving = .idle ↔ pc = .idle) ∧
    pc.reserving.calling = pc.calling ∧ pc.reserving.awaits = pc.awaits := by
  cases pc with
  | terminal goal => cases goal <;> exact ⟨by simp [Pc.reserving], rfl, rfl⟩
  | cleanup c goal =>
      cases goal with
      | publish source =>
          cases c with
          | observers todo => cases todo <;> exact ⟨by simp [Pc.reserving], rfl, rfl⟩
          | _ => exact ⟨by simp [Pc.reserving], rfl, rfl⟩
      | _ => exact ⟨by simp [Pc.reserving], rfl, rfl⟩
  | resume goal => cases goal <;> exact ⟨by simp [Pc.reserving], rfl, rfl⟩
  | scan w off => cases w <;> exact ⟨by simp [Pc.reserving], rfl, rfl⟩
  | scanState w off => cases w <;> exact ⟨by simp [Pc.reserving], rfl, rfl⟩
  | scanRetire w off generation => cases w <;> exact ⟨by simp [Pc.reserving], rfl, rfl⟩
  | scanClaims w off generation probes => cases w <;> exact ⟨by simp [Pc.reserving], rfl, rfl⟩
  | _ => exact ⟨by simp [Pc.reserving], rfl, rfl⟩

/-- The same steps concern two places that wait alike. -/
lemma concerns_congr {pc pc' : Pc} (hcalling : pc'.calling = pc.calling)
    (hawaits : pc'.awaits = pc.awaits) : l.Concerns pc' ↔ l.Concerns pc := by
  rcases l with _ | _ | ⟨i, l⟩ | _ | _ | _ | _
  case incarnation => cases l <;> simp only [Label.Concerns, hcalling, hawaits]
  all_goals exact Iff.rfl

lemma alone_reserving : Alone v a.reserving l ↔ Alone v a l := by
  obtain ⟨hidle, hcalling, hawaits⟩ := reserving_same a.producer.pc
  have hpc : a.reserving.producer.pc = a.producer.pc.reserving := rfl
  rw [Alone, Alone, hpc, ne_eq, hidle, concerns_congr hcalling hawaits]

/-- `commit` waits where `publish` waits. -/
lemma alone_committing (h : Posting g index a) (hidle : a.producer.pc ≠ .idle) :
    Alone v (a.committing g index) l ↔ Alone v a l := by
  have hpc : (a.committing g index).producer.pc =
      a.producer.pc.committing g index a.producer.outcome := rfl
  have hplace := h.place
  have hsame : (a.producer.pc.committing g index a.producer.outcome ≠ .idle) ∧
      (a.producer.pc.committing g index a.producer.outcome).calling = a.producer.pc.calling ∧
      (a.producer.pc.committing g index a.producer.outcome).awaits = a.producer.pc.awaits := by
    generalize a.producer.pc = pc at hidle hplace
    cases pc with
    | idle => exact absurd rfl hidle
    | describe | store | ring | latest | pages | paged => exact ⟨by rintro ⟨⟩, rfl, rfl⟩
    | _ => exact hplace.elim
  rw [Alone, Alone, hpc, concerns_congr hsame.2.1 hsame.2.2]
  exact and_congr_left fun _ => iff_of_true hsame.1 hidle

/-- Where the producer neither calls a page nor waits for an observer, only its own step is
left. -/
lemma Alone.producer (h : Alone v a l) (hcalling : a.producer.pc.calling = none)
    (hawaits : a.producer.pc.awaits = none) : ∃ e : Env, e.value = v ∧ l = .producer e := by
  obtain ⟨-, hl, hat⟩ := h
  cases l with
  | producer e => exact ⟨e, hl, rfl⟩
  | incarnation i l =>
      cases l with
      | host e =>
          have hat : a.producer.pc.calling = some i := hat
          rw [hcalling] at hat
          cases hat
      | observe e =>
          have hat : a.producer.pc.awaits = some i := hat
          rw [hawaits] at hat
          cases hat
      | _ => exact hl.elim
  | _ => exact hl.elim

section TwoWays

variable (hr : Reachable s) (hcpu : s.shared.native = false) (hidle : s.producer.pc = .idle)
  (hg : s.producer.resources = some g) (hcap : (s.shared.maps g).layout.payloadCapacity ≠ 0)
  (hlen : bytes.length ≤ (s.shared.maps g).layout.payloadCapacity)

/-- `publish` has been called. -/
def called (d : FrameDescriptor) (bytes : List UInt8) (s : Arena) : Arena :=
  s.goto (.terminal (.publish (.cpu d bytes)))

include hidle in
lemma step_publish (d : FrameDescriptor) (bytes : List UInt8) :
    s.step (.call (.publish (.cpu d bytes))) = some (s.called d bytes) := by
  rw [step, if_pos hidle]
  rfl

include hidle hcpu in
lemma step_reserve (d : FrameDescriptor) (bytes : List UInt8) :
    s.step (.call .reserve) = some (s.called d bytes).reserving := by
  rw [step, if_pos hidle, called, reserving_goto s (by rintro ⟨⟩)]
  simp only [begin, hcpu, Bool.false_eq_true, if_false]
  rfl

include hg hcap hlen in
lemma searching_called : Searching g d bytes (s.called d bytes) :=
  ⟨rfl, hg, hcap, hlen, by rintro ⟨⟩, by rintro _ ⟨⟩, by rintro ⟨⟩⟩

/-- What `publish` has come to, and what `reserve` and `commit` have come to. -/
inductive Paired (v g : ℕ) (d : FrameDescriptor) (bytes : List UInt8) (s a : Arena) : Prop
  | searching : Searching g d bytes a →
      Reaches step (Alone v) (s.called d bytes).reserving a.reserving → Paired v g d bytes s a
  | posting (index : ℕ) (t₂ t₃ t₄ : Arena) : Reserves v s t₂ →
      t₂.producer.outcome = .reserved index →
      t₂.step (.write g index (bytes ++ (t₂.record g index).payload.drop bytes.length)) =
        some t₃ →
      t₃.step (.call (.commit g index (lengthened d bytes))) = some t₄ →
      Reaches step (Alone v) t₄ (a.committing g index) → Posting g index a →
      Paired v g d bytes s a

include hcpu hidle in
/-- **One step of `publish`**, and what `reserve` and `commit` do for it. -/
lemma Paired.step (h : Paired v g d bytes s a) (ha : Reachable a) (hC : Alone v a l)
    (hs : a.step l = some b) : Paired v g d bytes s b := by
  cases h with
  | searching hsearch hrun =>
      by_cases hcopy : ∃ index, a.producer.pc = .copy index d bytes
      · -- the slot is found
        obtain ⟨index, hcopy⟩ := hcopy
        obtain ⟨e, he, rfl⟩ := hC.producer (by rw [hcopy]; rfl) (by rw [hcopy]; rfl)
        have hfill := hsearch.filling ha hcopy
        have hreserves : Reserves v s (a.reservedSlot g index) :=
          ⟨_, step_reserve hcpu hidle d bytes,
            hrun.tail (alone_reserving.mpr hC) (hfill.reserve e), rfl⟩
        have hcommit := hfill.committed e
        rw [hs, Option.map_some] at hcommit
        have halone : Alone v (a.pending g index d bytes) (.producer e) :=
          ⟨by rintro ⟨⟩, he, trivial⟩
        exact .posting index _ _ _ hreserves rfl hfill.write (Filling.commit a g index d bytes)
          (Reaches.refl.tail halone hcommit) (hfill.posting hs)
      · have hnot : ∀ index, a.producer.pc ≠ .copy index d bytes := fun i h0 => hcopy ⟨i, h0⟩
        have hcomm := hsearch.commutes hC.1 hnot hC.2.1
        rw [hs, Option.map_some] at hcomm
        exact .searching (hsearch.step ha.ledger hC.1 hnot hC.2.1 hs)
          (hrun.tail (alone_reserving.mpr hC) hcomm)
  | posting index t₂ t₃ t₄ hreserves hout hwrite hcommit hrun hpost =>
      have hcomm := hpost.commutes hC.1 hC.2.1
      rw [hs, Option.map_some] at hcomm
      exact .posting index t₂ t₃ t₄ hreserves hout hwrite hcommit
        (hrun.tail ((alone_committing hpost hC.1).mpr hC) hcomm) (hpost.step hC.1 hC.2.1 hs)

/-- `reserve` returns what `publish` would have returned. -/
lemma Searching.returned (h : Searching g d bytes a) (hidle : a.producer.pc = .idle) :
    (∀ index, a.reserving.producer.outcome ≠ .reserved index) ∧
      a.reserving.finish a.reserving.producer.outcome.publishing = a := by
  obtain ⟨sh, ⟨res, ret, pend, book, cl, cur, ns, rel, pc, out⟩, incs, log⟩ := a
  cases hidle
  rcases h.outcome rfl with hout | ⟨e, hout⟩
  · cases hout
    exact ⟨by rintro _ ⟨⟩, rfl⟩
  · cases hout
    exact ⟨by rintro _ ⟨⟩, rfl⟩

/-- `commit` is still running when its place is not idle. -/
lemma committing_running (a : Arena) (h : Posting g index a) :
    (a.committing g index).producer.pc ≠ .idle := by
  have hplace := h.place
  have hpc : (a.committing g index).producer.pc =
      a.producer.pc.committing g index a.producer.outcome := rfl
  rw [hpc]
  generalize a.producer.pc = pc at hplace
  cases pc with
  | idle | describe | store | ring | latest | pages | paged => rintro ⟨⟩
  | _ => exact hplace.elim

include hcpu hidle in
/-- The end of `publish`. -/
lemma Paired.inPlace (h : Paired v g d bytes s t) (ht : t.producer.pc = .idle) :
    InPlace v g d bytes s t := by
  cases h with
  | searching hsearch hrun =>
      have hpc : t.reserving.producer.pc = .idle := ((reserving_same t.producer.pc).1).mpr ht
      obtain ⟨hnot, hsame⟩ := hsearch.returned ht
      exact ⟨t.reserving, ⟨_, step_reserve hcpu hidle d bytes, hrun, hpc⟩,
        Or.inr ⟨hnot, hsame.symm⟩⟩
  | posting index t₂ t₃ t₄ hreserves hout hwrite hcommit hrun hpost =>
      have halone : Alone v (t.committing g index) (.producer { value := v }) :=
        ⟨committing_running t hpost, rfl, trivial⟩
      exact ⟨t₂, hreserves, Or.inl ⟨index, hout, t₃, t₄, hwrite, hcommit,
        hrun.tail halone (hpost.released ht _), ht⟩⟩

/-- What `reserve` has come to, and what `publish` has come to. -/
inductive Reserved (v g : ℕ) (d : FrameDescriptor) (bytes : List UInt8) (s a' : Arena) : Prop
  | searching (a : Arena) : Searching g d bytes a →
      Reaches step (Alone v) (s.called d bytes) a → a' = a.reserving → Reserved v g d bytes s a'
  | filling (a : Arena) (index : ℕ) : Filling g index d bytes a →
      Reaches step (Alone v) (s.called d bytes) a → a' = a.reservedSlot g index →
      Reserved v g d bytes s a'

include hr hidle in
lemma reachable_called (hrun : Reaches step (Alone v) (s.called d bytes) a) : Reachable a :=
  (hr.tail (step_publish hidle d bytes)).run hrun

include hr hidle in
/-- **One step of `reserve`.** -/
lemma Reserved.step (h : Reserved v g d bytes s a) (hC : Alone v a l) (hs : a.step l = some b) :
    Reserved v g d bytes s b := by
  cases h with
  | searching x hsearch hrun hax =>
      subst hax
      have hC' := alone_reserving.mp hC
      have hx := reachable_called hr hidle hrun
      by_cases hcopy : ∃ index, x.producer.pc = .copy index d bytes
      · obtain ⟨index, hcopy⟩ := hcopy
        obtain ⟨e, he, rfl⟩ := hC'.producer (by rw [hcopy]; rfl) (by rw [hcopy]; rfl)
        have hfill := hsearch.filling hx hcopy
        rw [hfill.reserve e, Option.some.injEq] at hs
        exact .filling x index hfill hrun hs.symm
      · have hnot : ∀ index, x.producer.pc ≠ .copy index d bytes := fun i h0 => hcopy ⟨i, h0⟩
        have hcomm := hsearch.commutes hC'.1 hnot hC'.2.1
        rw [hs] at hcomm
        obtain ⟨y, hy, hby⟩ := Option.map_eq_some_iff.mp hcomm.symm
        exact .searching y (hsearch.step hx.ledger hC'.1 hnot hC'.2.1 hy) (hrun.tail hC' hy)
          hby.symm
  | filling x index hfill hrun hax =>
      subst hax
      exact absurd rfl hC.1

/-- What `commit` has come to, and what `publish` has come to. -/
inductive Committed (v g index : ℕ) (d : FrameDescriptor) (bytes : List UInt8) (s a' : Arena) :
    Prop
  | pending (a : Arena) : Filling g index d bytes a →
      Reaches step (Alone v) (s.called d bytes) a → a' = a.pending g index d bytes →
      Committed v g index d bytes s a'
  | posting (a : Arena) : Posting g index a → Reaches step (Alone v) (s.called d bytes) a →
      a' = a.committing g index → Committed v g index d bytes s a'
  | returned : Reaches step (Alone v) (s.called d bytes) a' → a'.producer.pc = .idle →
      Committed v g index d bytes s a'

/-- **One step of `commit`.** -/
lemma Committed.step (h : Committed v g index d bytes s a) (hC : Alone v a l)
    (hs : a.step l = some b) : Committed v g index d bytes s b := by
  cases h with
  | pending x hfill hrun hax =>
      subst hax
      obtain ⟨e, he, rfl⟩ := hC.producer rfl rfl
      rw [hfill.committed e] at hs
      obtain ⟨y, hy, hby⟩ := Option.map_eq_some_iff.mp hs
      have halone : Alone v x (.producer e) := by
        refine ⟨?_, he, trivial⟩
        rw [hfill.copy]
        rintro ⟨⟩
      exact .posting y (hfill.posting hy) (hrun.tail halone hy) hby.symm
  | posting x hpost hrun hax =>
      subst hax
      by_cases hidle : x.producer.pc = .idle
      · -- `publish` has returned, and the reservation is dropped
        have hpc : (x.committing g index).producer.pc = .release g index x.producer.outcome := by
          have hpc' : (x.committing g index).producer.pc =
              x.producer.pc.committing g index x.producer.outcome := rfl
          rw [hpc', hidle]
          rfl
        obtain ⟨e, he, rfl⟩ := hC.producer (by rw [hpc]; rfl) (by rw [hpc]; rfl)
        rw [hpost.released hidle e, Option.some.injEq] at hs
        subst hs
        exact .returned hrun hidle
      · have hC' := (alone_committing hpost hidle).mp hC
        rw [hpost.commutes hidle hC'.2.1] at hs
        obtain ⟨y, hy, hby⟩ := Option.map_eq_some_iff.mp hs
        exact .posting y (hpost.step hidle hC'.2.1 hy) (hrun.tail hC' hy) hby.symm
  | returned hrun hidle => exact absurd hidle hC.1

/-- The end of `commit`. -/
lemma Committed.copied (h : Committed v g index d bytes s t) (ht : t.producer.pc = .idle) :
    Reaches Arena.step (Alone v) (s.called d bytes) t := by
  cases h with
  | pending a hfill hrun ha =>
      subst ha
      cases ht
  | posting a hpost hrun ha =>
      subst ha
      exact absurd ht (committing_running a hpost)
  | returned hrun hidle => exact hrun

include hr hcpu hidle hg hcap hlen in
/-- **The two ways reach the same arenas.** -/
lemma copies_iff_inPlace : Copies v d bytes s t ↔ InPlace v g d bytes s t := by
  have hstart : Searching g d bytes (s.called d bytes) := searching_called hg hcap hlen
  constructor
  · rintro ⟨t₁, hcall, hrun, ht⟩
    cases (step_publish hidle d bytes).symm.trans hcall
    have hpaired : Paired v g d bytes s t :=
      hrun.invariant_with (P := Paired v g d bytes s) (Q := Reachable)
        (fun a ha => (hr.tail hcall).run ha) (.searching hstart .refl)
        fun a l b ha hp hC hs => hp.step hcpu hidle ha hC hs
    exact hpaired.inPlace hcpu hidle ht
  · rintro ⟨t₂, ⟨t₁, hcall, hrun, ht₂⟩, hrest⟩
    cases (step_reserve hcpu hidle d bytes).symm.trans hcall
    have hreserved : Reserved v g d bytes s t₂ :=
      hrun.invariant (P := Reserved v g d bytes s) (.searching _ hstart .refl rfl)
        fun a l b hp hC hs => hp.step hr hidle hC hs
    cases hreserved with
    | searching a hsearch hrun' ha =>
        subst ha
        have ha : a.producer.pc = .idle := ((reserving_same a.producer.pc).1).mp ht₂
        obtain ⟨hnot, hsame⟩ := hsearch.returned ha
        rcases hrest with ⟨index, hout, -⟩ | ⟨-, heq⟩
        · exact absurd hout (hnot index)
        · rw [heq, hsame]
          exact ⟨_, step_publish hidle d bytes, hrun', ha⟩
    | filling a index hfill hrun' ha =>
        subst ha
        rcases hrest with ⟨index', hout, t₃, t₄, hwrite, hcommit, hrun'', ht⟩ | ⟨hnot, -⟩
        · cases hout
          cases hfill.write.symm.trans hwrite
          cases (Filling.commit a g index d bytes).symm.trans hcommit
          have hcommitted : Committed v g index d bytes s t :=
            hrun''.invariant (P := Committed v g index d bytes s) (.pending a hfill hrun' rfl)
              fun a l b hp hC hs => hp.step hC hs
          exact ⟨_, step_publish hidle d bytes, hcommitted.copied ht, ht⟩
        · exact absurd rfl (hnot index)

end TwoWays

end Arena

end Jackstay.Acquisition
