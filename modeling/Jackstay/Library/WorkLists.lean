import Mathlib.Algebra.GroupWithZero.Nat
import Mathlib.Data.List.Basic
import Mathlib.Tactic.Common

/-!
Several agents, each with a list of operations still to run.

* `total p ls`: how many operations with property `p` are pending in all the lists.
* `total_set`: an agent that runs its next operation takes it away and puts what
  follows from it in front of the rest.
* `total_append_singleton`: a new agent adds its own list.
* `total_eq_zero`, `total_pos`: a count read as a statement about all agents.
-/

namespace Jackstay.WorkLists

variable {α : Type*} (p : α → Bool)

/-- The pending operations with property `p`. -/
def total (ls : List (List α)) : ℕ := (ls.map (·.countP p)).sum

@[simp] lemma total_nil : total p [] = 0 := rfl

@[simp] lemma total_cons (l : List α) (ls : List (List α)) :
    total p (l :: ls) = l.countP p + total p ls := by
  simp [total]

lemma total_append_singleton (ls : List (List α)) (l : List α) :
    total p (ls ++ [l]) = total p ls + l.countP p := by
  simp [total]

/-- One agent runs its next operation. -/
lemma total_set {ls : List (List α)} {t : ℕ} {op : α} {rest : List α} (next : List α)
    (h : ls[t]? = some (op :: rest)) :
    total p (ls.set t (next ++ rest)) + (if p op then 1 else 0) =
      total p ls + next.countP p := by
  induction ls generalizing t with
  | nil => simp at h
  | cons l ls ih =>
      cases t with
      | zero =>
          rw [List.getElem?_cons_zero, Option.some.injEq] at h
          subst h
          rw [List.set_cons_zero, total_cons, total_cons, List.countP_append, List.countP_cons]
          omega
      | succ t =>
          rw [List.getElem?_cons_succ] at h
          have := ih h
          rw [List.set_cons_succ, total_cons, total_cons]
          omega

lemma total_eq_zero {ls : List (List α)} :
    total p ls = 0 ↔ ∀ l ∈ ls, ∀ a ∈ l, p a = false := by
  induction ls with
  | nil => simp
  | cons l ls ih =>
      rw [total_cons, Nat.add_eq_zero_iff, ih]
      simp [List.countP_eq_zero]

lemma total_pos {ls : List (List α)} {l : List α} {a : α} (hl : l ∈ ls) (ha : a ∈ l)
    (hp : p a = true) : 0 < total p ls := by
  by_contra hne
  have h0 : total p ls = 0 := by omega
  rw [(total_eq_zero p).mp h0 l hl a ha] at hp
  cases hp

end Jackstay.WorkLists
