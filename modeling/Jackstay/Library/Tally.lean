import Mathlib.Data.List.Basic
import Mathlib.Tactic.Common

/-!
The tally of a producer that numbers what it captures, publishes some of it and drops the
rest.

A published item carries its number, how many were dropped right before it, and how many were
dropped in all. `Tally.publish` and `Tally.drop` are what may become of a captured item;
`Tally.Balanced` holds of what they make: every gap in the numbers is explained by the item
after it.
-/

namespace Jackstay

/-- A published item: its number, the items dropped since the one before it, and all of the
items that were dropped. -/
structure Tally.Item where
  sequence : ℕ
  dropped : ℕ
  total : ℕ
  deriving DecidableEq, Repr

/-- The items that were published, the number of the last captured one, the drops since the
last published one, and all drops. -/
structure Tally where
  published : List Tally.Item := []
  sequence : ℕ := 0
  pending : ℕ := 0
  drops : ℕ := 0
  deriving DecidableEq, Repr

namespace Tally

/-- An item is captured and published. -/
def publish (a : Tally) : Tally where
  published := a.published ++ [⟨a.sequence + 1, a.pending, a.drops⟩]
  sequence := a.sequence + 1
  pending := 0
  drops := a.drops

/-- An item is captured and dropped. -/
def drop (a : Tally) : Tally where
  published := a.published
  sequence := a.sequence + 1
  pending := a.pending + 1
  drops := a.drops + 1

/-- The last item; before the first one, nothing has been captured. -/
def last (a : Tally) : Item := a.published.getLast?.getD ⟨0, 0, 0⟩

/-- `y` comes right after `x`. -/
def Follows (x y : Item) : Prop :=
  y.sequence = x.sequence + 1 + y.dropped ∧ y.total = x.total + y.dropped

/-- **The tally balances**: the gap before an item is what it says, and the gap after the last
one is what will be said next. -/
structure Balanced (a : Tally) : Prop where
  sequence : a.last.sequence + a.pending = a.sequence
  drops : a.last.total + a.pending = a.drops
  first : ∀ x, a.published[0]? = some x → Follows ⟨0, 0, 0⟩ x
  next : ∀ i x y, a.published[i]? = some x → a.published[i + 1]? = some y → Follows x y

variable {a : Tally}

lemma balanced_empty : ({} : Tally).Balanced :=
  ⟨rfl, rfl, fun _ h => (nomatch h), fun _ _ _ h => (nomatch h)⟩

lemma Balanced.drop (h : a.Balanced) : a.drop.Balanced := by
  have hsequence : a.last.sequence + (a.pending + 1) = a.sequence + 1 := by
    rw [← Nat.add_assoc, h.sequence]
  have hdrops : a.last.total + (a.pending + 1) = a.drops + 1 := by
    rw [← Nat.add_assoc, h.drops]
  exact ⟨hsequence, hdrops, h.first, h.next⟩

/-- What is published next follows the last item. -/
lemma Balanced.follows (h : a.Balanced) :
    Follows a.last ⟨a.sequence + 1, a.pending, a.drops⟩ := by
  refine ⟨?_, h.drops.symm⟩
  show a.sequence + 1 = a.last.sequence + 1 + a.pending
  rw [← h.sequence, Nat.add_right_comm]

lemma Balanced.publish (h : a.Balanced) : a.publish.Balanced := by
  have hlast : a.publish.last = ⟨a.sequence + 1, a.pending, a.drops⟩ := by
    rw [last, Tally.publish, List.getLast?_concat]
    rfl
  have hfollows := h.follows
  refine ⟨?_, ?_, fun x hx => ?_, fun i x y hx hy => ?_⟩
  · rw [hlast]
    rfl
  · rw [hlast]
    rfl
  · rw [Tally.publish, List.getElem?_append] at hx
    split_ifs at hx with hold
    · exact h.first x hx
    · have hnil : a.published = [] := List.eq_nil_of_length_eq_zero (by omega)
      have hx : x = ⟨a.sequence + 1, a.pending, a.drops⟩ :=
        List.mem_singleton.mp (List.mem_of_getElem? hx)
      rw [last, hnil] at hfollows
      rw [hx]
      exact hfollows
  · rw [Tally.publish, List.getElem?_append] at hx hy
    split_ifs at hx hy with hi hj
    · exact h.next i x y hx hy
    · -- the new item comes after the last one
      have hy : y = ⟨a.sequence + 1, a.pending, a.drops⟩ :=
        List.mem_singleton.mp (List.mem_of_getElem? hy)
      have hx' : a.published.getLast? = some x := by
        rw [List.getLast?_eq_getElem?, ← hx]
        congr 1
        omega
      rw [last, hx'] at hfollows
      rw [hy]
      exact hfollows
    · omega
    · have hlt := (List.getElem?_eq_some_iff.mp hy).1
      have hone : [(⟨a.sequence + 1, a.pending, a.drops⟩ : Item)].length = 1 := rfl
      omega

end Tally

end Jackstay
