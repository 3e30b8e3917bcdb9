import Mathlib.Data.List.Basic
import Mathlib.Tactic.Common

/-!
Machines whose every call succeeds and returns a reply: `call : σ → ℓ → σ × ρ`.

* `Runs call C s₀ tr s`: from `s₀` the calls of `tr`, with the replies recorded there,
  lead to `s`, and each of them met the condition `C` on the state before it.
* `Runs.invariant`: a relation between the trace and the state that holds at the start
  and is preserved by every call holds after every run.
* `Runs.append`: a run goes on with a run from where it ended.
* `Each Q tr`: every entry of a trace is in the relation `Q` to those before it.
* `record`: the run of a script, and `Runs.of_record` its witness.
-/

namespace Jackstay.Traces

variable {σ ℓ ρ : Type*}

/-- The calls of `tr`, with these replies, lead from `s₀` to the state, and each meets
`C` before it. -/
inductive Runs (call : σ → ℓ → σ × ρ) (C : σ → ℓ → Prop) (s₀ : σ) : List (ℓ × ρ) → σ → Prop
  | nil : Runs call C s₀ [] s₀
  | snoc {tr : List (ℓ × ρ)} {s : σ} (l : ℓ) : Runs call C s₀ tr s → C s l →
      Runs call C s₀ (tr ++ [(l, (call s l).2)]) (call s l).1

/-- The condition that every call meets. -/
def Always (_ : σ) (_ : ℓ) : Prop := True

namespace Runs

variable {call : σ → ℓ → σ × ρ} {C D : σ → ℓ → Prop} {s₀ s₁ s₂ : σ} {tr tr' : List (ℓ × ρ)}

/-- **The invariant rule**, for a relation between traces and states. -/
theorem invariant {P : List (ℓ × ρ) → σ → Prop} (h : Runs call C s₀ tr s₁) (h₀ : P [] s₀)
    (hcall : ∀ tr s l, Runs call C s₀ tr s → P tr s → C s l →
      P (tr ++ [(l, (call s l).2)]) (call s l).1) : P tr s₁ := by
  induction h with
  | nil => exact h₀
  | snoc l hr hc ih => exact hcall _ _ l hr ih hc

lemma mono (h : Runs call C s₀ tr s₁) (hCD : ∀ s l, C s l → D s l) : Runs call D s₀ tr s₁ := by
  induction h with
  | nil => exact .nil
  | snoc l _ hc ih => exact .snoc l ih (hCD _ _ hc)

/-- A run whose calls meet a condition is a run. -/
lemma always (h : Runs call C s₀ tr s₁) : Runs call Always s₀ tr s₁ :=
  h.mono fun _ _ _ => trivial

lemma append (h : Runs call C s₀ tr s₁) (h' : Runs call C s₁ tr' s₂) :
    Runs call C s₀ (tr ++ tr') s₂ := by
  induction h' with
  | nil => simpa using h
  | snoc l _ hc ih =>
      rw [← List.append_assoc]
      exact .snoc l ih hc

end Runs

/-- Every entry of a trace is in this relation to what stands before it. -/
def Each {α : Type*} (Q : List α → α → Prop) (tr : List α) : Prop :=
  ∀ pre x post, tr = pre ++ x :: post → Q pre x

lemma each_nil {α : Type*} {Q : List α → α → Prop} : Each Q [] := by
  intro pre x post h
  cases pre <;> cases h

/-- The last entry, and those before it. -/
lemma Each.snoc {α : Type*} {Q : List α → α → Prop} {tr : List α} {x : α} (h : Each Q tr)
    (hx : Q tr x) : Each Q (tr ++ [x]) := by
  intro pre y post heq
  rcases List.eq_nil_or_concat post with rfl | ⟨rest, z, rfl⟩
  · obtain ⟨rfl, hy⟩ := List.append_inj' heq rfl
    cases hy
    exact hx
  · have heq : tr ++ [x] = (pre ++ y :: rest) ++ [z] := by rw [heq]; simp
    obtain ⟨htr, -⟩ := List.append_inj' heq rfl
    exact h pre y rest htr

/-- Make the calls of a script one after the other. -/
def record (call : σ → ℓ → σ × ρ) : σ → List ℓ → List (ℓ × ρ) × σ
  | s, [] => ([], s)
  | s, l :: ls =>
      ((l, (call s l).2) :: (record call (call s l).1 ls).1, (record call (call s l).1 ls).2)

/-- The calls of a script meet the condition, each in its own state. -/
def meets (call : σ → ℓ → σ × ρ) (B : σ → ℓ → Bool) : σ → List ℓ → Bool
  | _, [] => true
  | s, l :: ls => B s l && meets call B (call s l).1 ls

/-- A script whose calls meet a condition is a run. -/
lemma Runs.of_meets {call : σ → ℓ → σ × ρ} {C : σ → ℓ → Prop} {B : σ → ℓ → Bool}
    (hB : ∀ s l, B s l = true → C s l) {s : σ} {ls : List ℓ} (h : meets call B s ls = true) :
    Runs call C s (record call s ls).1 (record call s ls).2 := by
  induction ls generalizing s with
  | nil => exact .nil
  | cons l ls ih =>
      rw [meets, Bool.and_eq_true] at h
      have hone : Runs call C s [(l, (call s l).2)] (call s l).1 :=
        .snoc l .nil (hB _ _ h.1)
      exact hone.append (ih h.2)

/-- A script is a run. -/
lemma Runs.of_record (call : σ → ℓ → σ × ρ) (s : σ) (ls : List ℓ) :
    Runs call Always s (record call s ls).1 (record call s ls).2 := by
  refine .of_meets (B := fun _ _ => true) (fun _ _ _ => trivial) ?_
  induction ls generalizing s with
  | nil => rfl
  | cons l ls ih => exact ih _

end Jackstay.Traces
