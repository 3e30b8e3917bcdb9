import Jackstay.Library.MachineInt
import Mathlib.Order.Monotone.Basic

/-!
Regions that are cut into pieces at computed offsets.

* `LaidOut`: every piece has an offset, aligned and inside of the region, and two pieces do not
  overlap.
* `LaidOut.of_starts`: it is enough to know the offsets as numbers.
* `LaidOut.of_sections`: pieces of different sections do not overlap.
-/

namespace Jackstay.MachineInt

variable {ε ι : Type}

/-- **A region of this length and its pieces.** The offsets are computed, and no computation of
one overflows. -/
structure LaidOut (valid : ι → Prop) (offset : ι → Calc ε ℕ) (size align : ι → ℕ) (len : ℕ) :
    Prop where
  placed : ∀ i, valid i → ∃ start, offset i = .ok start ∧ align i ∣ start ∧ start + size i ≤ len
  apart : ∀ i j a b, valid i → valid j → i ≠ j → offset i = .ok a → offset j = .ok b →
    a + size i ≤ b ∨ b + size j ≤ a

/-- The offsets are these numbers. -/
lemma LaidOut.of_starts {valid : ι → Prop} {offset : ι → Calc ε ℕ} {size align : ι → ℕ} {len : ℕ}
    (start : ι → ℕ) (hoffset : ∀ i, valid i → offset i = .ok (start i))
    (haligned : ∀ i, valid i → align i ∣ start i) (hinside : ∀ i, valid i → start i + size i ≤ len)
    (hapart : ∀ i j, valid i → valid j → i ≠ j →
      start i + size i ≤ start j ∨ start j + size j ≤ start i) :
    LaidOut valid offset size align len := by
  refine ⟨fun i hi => ⟨start i, hoffset i hi, haligned i hi, hinside i hi⟩, ?_⟩
  intro i j a b hi hj hne ha hb
  rw [hoffset i hi] at ha
  rw [hoffset j hj] at hb
  cases ha
  cases hb
  exact hapart i j hi hj hne

/-- **A region of sections**, one after the other, with pieces in each. -/
lemma LaidOut.of_sections {valid : ι → Prop} {offset : ι → Calc ε ℕ} {size align : ι → ℕ}
    {len : ℕ} (start part : ι → ℕ) (bound : ℕ → ℕ) (hbound : ∀ k, bound k ≤ bound (k + 1))
    (hoffset : ∀ i, valid i → offset i = .ok (start i))
    (haligned : ∀ i, valid i → align i ∣ start i)
    (hwithin : ∀ i, valid i → bound (part i) ≤ start i ∧ start i + size i ≤ bound (part i + 1))
    (hlen : ∀ i, valid i → bound (part i + 1) ≤ len)
    (hsame : ∀ i j, valid i → valid j → i ≠ j → part i = part j →
      start i + size i ≤ start j ∨ start j + size j ≤ start i) :
    LaidOut valid offset size align len := by
  have hmono : Monotone bound := monotone_nat_of_le_succ hbound
  have hbefore : ∀ i j, valid i → valid j → part i < part j → start i + size i ≤ start j := by
    intro i j hi hj hlt
    calc start i + size i ≤ bound (part i + 1) := (hwithin i hi).2
      _ ≤ bound (part j) := hmono hlt
      _ ≤ start j := (hwithin j hj).1
  refine .of_starts start hoffset haligned
    (fun i hi => Nat.le_trans (hwithin i hi).2 (hlen i hi)) fun i j hi hj hne => ?_
  rcases Nat.lt_trichotomy (part i) (part j) with hlt | heq | hgt
  · exact Or.inl (hbefore i j hi hj hlt)
  · exact hsame i j hi hj hne heq
  · exact Or.inr (hbefore j i hj hi hgt)

end Jackstay.MachineInt
