import Mathlib.Algebra.GroupWithZero.Nat
import Mathlib.Order.Nat
import Mathlib.Data.List.Basic
import Mathlib.Tactic.Common

/-!
Records behind a sequence word.

A writer replaces a record in three moves: it zeroes the sequence word, stores the words of
the record one by one, and stores the new version in the sequence word. A reader loads the
sequence word, copies the words one by one and loads the sequence word again. Versions
only grow.

* `Cell`: a record with its sequence word. `begun` is a history variable, the last version
  whose write has begun.
* `Cell.Writes`: what a writer may do to a cell in one step.
* `Copied`: what a reader that has copied some of the words knows.
* `Copied.validated`: a copy between two equal loads holds the record of that version.
* `Logged log n x`: version `n` of a log of all records is `x`; versions count from one.
-/

namespace Jackstay.Seqlock

variable {ι V : Type*}

/-- A record with its sequence word. -/
structure Cell (ι V : Type*) where
  sequence : ℕ
  words : ι → V
  begun : ℕ

namespace Cell

/-- The sequence word is zeroed before version `n` is written. -/
def invalidate (c : Cell ι V) (n : ℕ) : Cell ι V := { c with sequence := 0, begun := n }

/-- One word is stored. -/
def store [DecidableEq ι] (c : Cell ι V) (i : ι) (v : V) : Cell ι V :=
  { c with words := Function.update c.words i v }

/-- The sequence word names version `n`. -/
def publish (c : Cell ι V) (n : ℕ) : Cell ι V := { c with sequence := n }

/-- A step of the writer of a cell. -/
inductive Writes [DecidableEq ι] (c : Cell ι V) : Cell ι V → Prop
  | invalidate {n : ℕ} : c.begun < n → Writes c (c.invalidate n)
  | store {i : ι} {v : V} : c.sequence = 0 → Writes c (c.store i v)
  | publish : c.sequence = 0 → Writes c (c.publish c.begun)

/-- The version that the sequence word names is the last one, and it has been written. -/
def Sound (Q : ℕ → (ι → V) → Prop) (c : Cell ι V) : Prop :=
  c.sequence ≠ 0 → c.sequence = c.begun ∧ Q c.begun c.words

/-- Version `n` is being written, and so many of its words have been stored. -/
structure Storing (c : Cell ι V) (n : ℕ) (image : ι → V) (done : List ι) : Prop where
  sequence : c.sequence = 0
  begun : c.begun = n
  stored : ∀ i ∈ done, c.words i = image i

variable {c c' : Cell ι V} {n : ℕ} {image : ι → V} {done : List ι} {Q R : ℕ → (ι → V) → Prop}

lemma Writes.begun_le [DecidableEq ι] (h : Writes c c') : c.begun ≤ c'.begun := by
  cases h with
  | invalidate hn => exact hn.le
  | store _ => exact le_rfl
  | publish _ => exact le_rfl

lemma storing_invalidate (c : Cell ι V) (n : ℕ) (image : ι → V) :
    (c.invalidate n).Storing n image [] := ⟨rfl, rfl, fun _ h0 => (nomatch h0)⟩

lemma Storing.store [DecidableEq ι] (h : c.Storing n image done) (i : ι) :
    (c.store i (image i)).Storing n image (done ++ [i]) := by
  refine ⟨h.sequence, h.begun, fun j hj => ?_⟩
  by_cases hij : j = i
  · subst hij
    exact Function.update_self ..
  · have hdone : j ∈ done := by simpa [hij] using hj
    rw [← h.stored j hdone]
    exact Function.update_of_ne hij ..

lemma Sound.of_zero (h : c.sequence = 0) : c.Sound Q := fun h0 => absurd h h0

lemma Sound.mono (h : c.Sound Q) (hQ : ∀ w, Q c.begun w → R c.begun w) : c.Sound R :=
  fun h0 => ⟨(h h0).1, hQ _ (h h0).2⟩

lemma Storing.sound (h : c.Storing n image done) (hQ : Q n c.words) :
    (c.publish n).Sound Q := by
  intro _
  refine ⟨h.begun.symm, ?_⟩
  show Q c.begun c.words
  rw [h.begun]
  exact hQ

/-- What holds of all cells and of the new one holds of all cells. -/
lemma forall_update {κ : Type*} [DecidableEq κ] {slots : κ → Cell ι V} {P : Cell ι V → Prop}
    (h : ∀ k, P (slots k)) (k : κ) (hc : P c) : ∀ j, P (Function.update slots k c j) :=
  (Function.forall_update_iff slots fun _ x => P x).mpr ⟨hc, fun j _ => h j⟩

lemma Writes.le_update {κ : Type*} [DecidableEq ι] [DecidableEq κ] {slots : κ → Cell ι V} {j k : κ}
    (hw : Writes (slots k) c) (h : n ≤ (slots j).begun) :
    n ≤ (Function.update slots k c j).begun := by
  by_cases hjk : j = k
  · subst hjk
    rw [Function.update_self]
    exact h.trans hw.begun_le
  · rw [Function.update_of_ne hjk]
    exact h

end Cell

/-- **What a reader knows**: it has loaded `first` from the sequence word and has copied
the words of `done` since. As long as no newer version has been begun they are the words
of the cell. -/
structure Copied (c : Cell ι V) (first : ℕ) (copy : ι → V) (done : List ι) : Prop where
  le : first ≤ c.begun
  intact : first ≠ 0 → first = c.begun → c.sequence = first ∧ ∀ i ∈ done, copy i = c.words i

namespace Copied

open Cell

variable {c c' : Cell ι V} {first : ℕ} {copy : ι → V} {done : List ι} {Q : ℕ → (ι → V) → Prop}

/-- The first load of the sequence word. -/
lemma load_sequence (h : c.Sound Q) (copy : ι → V) : Copied c c.sequence copy [] := by
  refine ⟨?_, fun _ _ => ⟨rfl, fun _ h0 => (nomatch h0)⟩⟩
  by_cases h0 : c.sequence = 0
  · rw [h0]
    exact Nat.zero_le _
  · exact (h h0).1.le

/-- The copy of one word. -/
lemma load [DecidableEq ι] (h : Copied c first copy done) (i : ι) :
    Copied c first (Function.update copy i (c.words i)) (done ++ [i]) := by
  refine ⟨h.le, fun h0 hfirst => ⟨(h.intact h0 hfirst).1, fun j hj => ?_⟩⟩
  by_cases hij : j = i
  · subst hij
    exact Function.update_self ..
  · have hdone : j ∈ done := by simpa [hij] using hj
    rw [Function.update_of_ne hij]
    exact (h.intact h0 hfirst).2 j hdone

/-- **A step of the writer leaves the reader with what it knows.** -/
lemma writes [DecidableEq ι] (h : Copied c first copy done) (hw : Writes c c') :
    Copied c' first copy done := by
  refine ⟨h.le.trans hw.begun_le, fun h0 hfirst => ?_⟩
  cases hw with
  | @invalidate n hn =>
      have hle : n ≤ c.begun := le_of_eq_of_le hfirst.symm h.le
      exact absurd hn (Nat.not_lt.mpr hle)
  | store hseq =>
      have hlast := (h.intact h0 hfirst).1
      exact absurd (hlast.symm.trans hseq) h0
  | publish hseq =>
      have hlast := (h.intact h0 hfirst).1
      exact absurd (hlast.symm.trans hseq) h0

/-- A step of the writer of an array of cells. -/
lemma update {κ : Type*} [DecidableEq ι] [DecidableEq κ] {slots : κ → Cell ι V} {j k : κ}
    (h : Copied (slots j) first copy done) (hw : Writes (slots k) c') :
    Copied (Function.update slots k c' j) first copy done := by
  by_cases hjk : j = k
  · subst hjk
    rw [Function.update_self]
    exact h.writes hw
  · rw [Function.update_of_ne hjk]
    exact h

/-- **A validated copy is the record of its version.** -/
lemma validated (h : Copied c first copy done) (hs : c.Sound Q) (h0 : first ≠ 0)
    (hsecond : c.sequence = first) :
    first = c.begun ∧ Q first c.words ∧ ∀ i ∈ done, copy i = c.words i := by
  obtain ⟨hlast, hQ⟩ := hs (hsecond ▸ h0)
  have hfirst : first = c.begun := hsecond ▸ hlast
  exact ⟨hfirst, hfirst ▸ hQ, (h.intact h0 hfirst).2⟩

end Copied

/-! ### Logs of versions -/

/-- Version `n` of the log is `x`. -/
def Logged {α : Type*} (log : List α) (n : ℕ) (x : α) : Prop := 0 < n ∧ log[n - 1]? = some x

namespace Logged

variable {α : Type*} {log : List α} {n : ℕ} {x y : α}

lemma le (h : Logged log n x) : n ≤ log.length := by
  obtain ⟨hpos, hx⟩ := h
  obtain ⟨hlt, -⟩ := List.getElem?_eq_some_iff.mp hx
  omega

lemma unique (h : Logged log n x) (h' : Logged log n y) : x = y :=
  Option.some.inj (h.2.symm.trans h'.2)

lemma mem (h : Logged log n x) : x ∈ log := List.mem_of_getElem? h.2

lemma append (h : Logged log n x) (more : List α) : Logged (log ++ more) n x := by
  have hle := h.le
  have hpos := h.1
  refine ⟨hpos, ?_⟩
  rw [List.getElem?_append_left (by omega)]
  exact h.2

lemma of_append {more : List α} (h : Logged (log ++ more) n x) (hle : n ≤ log.length) :
    Logged log n x := by
  obtain ⟨hpos, hx⟩ := h
  rw [List.getElem?_append_left (by omega)] at hx
  exact ⟨hpos, hx⟩

lemma last (log : List α) (x : α) : Logged (log ++ [x]) (log.length + 1) x := by
  refine ⟨Nat.succ_pos _, ?_⟩
  rw [Nat.add_sub_cancel]
  exact List.getElem?_concat_length

end Logged

end Jackstay.Seqlock
