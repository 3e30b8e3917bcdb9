import Mathlib.Data.List.Basic
import Mathlib.Tactic.Common

/-!
Labelled transition systems given by a partial step function
`step : σ → ℓ → Option σ`, and the rules the rest of the development runs on:

* `play`: the run of a script of labels, passing over the disabled ones;
* `Reaches C s s'`: `s'` is reached from `s` by steps that all meet the
  condition `C` on the state before the step and its label (`C` is `Always`
  when nothing is asked of the schedule);
* `Reaches.invariant`: a property of the first state that every step preserves
  holds in every state reached;
* `Reaches.of_play`: a played script is a witness of reachability; `of_execIn`
  checks a condition along the way, and so does `of_playIn`;
* `counting`: the same system, with a count of some of its steps.
-/

namespace Jackstay.Transition

variable {σ ℓ : Type*}

/-- Run a list of labels as long as the condition `C` holds before each. -/
def execIn (step : σ → ℓ → Option σ) (C : σ → ℓ → Bool) : σ → List ℓ → Option σ
  | s, [] => some s
  | s, l :: ls => if C s l then (step s l).bind fun s' => execIn step C s' ls else none

/-- Take the labels one after the other, passing over those that are disabled. -/
def play (step : σ → ℓ → Option σ) (s : σ) (ls : List ℓ) : σ :=
  ls.foldl (fun s l => (step s l).getD s) s

/-- Take the labels one after the other, passing over those that are disabled and those that do
not meet the condition `C`. -/
def playIn (step : σ → ℓ → Option σ) (C : σ → ℓ → Bool) (s : σ) (ls : List ℓ) : σ :=
  ls.foldl (fun s l => if C s l then (step s l).getD s else s) s

/-- The system with a count of the steps that `event` names: by the state before it, its label
and the state after it. -/
def counting (step : σ → ℓ → Option σ) (event : σ → ℓ → σ → Bool) (s : σ × ℕ) (l : ℓ) :
    Option (σ × ℕ) :=
  (step s.1 l).map fun s' => (s', if event s.1 l s' then s.2 + 1 else s.2)

/-- The condition that every step meets. -/
def Always (_ : σ) (_ : ℓ) : Prop := True

/-- `s'` is reached from `s` by steps that meet `C`. -/
inductive Reaches (step : σ → ℓ → Option σ) (C : σ → ℓ → Prop) (s : σ) : σ → Prop
  | refl : Reaches step C s s
  | tail {s₁ s₂ : σ} {l : ℓ} : Reaches step C s s₁ → C s₁ l → step s₁ l = some s₂ →
      Reaches step C s s₂

namespace Reaches

variable {step : σ → ℓ → Option σ} {C D : σ → ℓ → Prop} {s s₁ s₂ : σ}

/-- **The invariant rule**: what holds at the start and is preserved by every
step that meets the condition holds in every state reached. -/
theorem invariant {P : σ → Prop} (h : Reaches step C s s₁) (h₀ : P s)
    (hstep : ∀ a l b, P a → C a l → step a l = some b → P b) : P s₁ := by
  induction h with
  | refl => exact h₀
  | tail _ hc hs ih => exact hstep _ _ _ ih hc hs

lemma trans (h : Reaches step C s s₁) (h' : Reaches step C s₁ s₂) : Reaches step C s s₂ := by
  induction h' with
  | refl => exact h
  | tail _ hc hs ih => exact ih.tail hc hs

lemma mono (h : Reaches step C s s₁) (hCD : ∀ a l, C a l → D a l) : Reaches step D s s₁ := by
  induction h with
  | refl => exact .refl
  | tail _ hc hs ih => exact ih.tail (hCD _ _ hc) hs

/-- A run whose steps meet a condition is a run. -/
lemma always (h : Reaches step C s s₁) : Reaches step Always s s₁ :=
  h.mono fun _ _ _ => trivial

/-- An invariant of all runs may be used along a run that meets `C`. -/
theorem invariant_with {P Q : σ → Prop} (h : Reaches step C s s₁)
    (hQ : ∀ a, Reaches step Always s a → Q a) (h₀ : P s)
    (hstep : ∀ a l b, Q a → P a → C a l → step a l = some b → P b) : P s₁ := by
  induction h with
  | refl => exact h₀
  | tail hr hc hs ih => exact hstep _ _ _ (hQ _ hr.always) ih hc hs

/-- An executed trace whose steps meet `C` is a run. -/
lemma of_execIn {B : σ → ℓ → Bool} {ls : List ℓ} (hB : ∀ a l, B a l = true → C a l)
    (h : execIn step B s ls = some s₁) : Reaches step C s s₁ := by
  induction ls generalizing s with
  | nil =>
      simp only [execIn, Option.some.injEq] at h
      exact h ▸ .refl
  | cons l ls ih =>
      simp only [execIn] at h
      split at h
      · rename_i hb
        obtain ⟨a, ha, hls⟩ := Option.bind_eq_some_iff.mp h
        exact (Reaches.refl.tail (hB _ _ hb) ha).trans (ih hls)
      · simp at h

/-- A played script is a run. -/
lemma of_play (step : σ → ℓ → Option σ) (s : σ) (ls : List ℓ) :
    Reaches step Always s (play step s ls) := by
  induction ls generalizing s with
  | nil => exact .refl
  | cons l ls ih =>
      have htail := ih ((step s l).getD s)
      cases hs : step s l with
      | none =>
          rw [hs, Option.getD_none] at htail
          simpa only [play, List.foldl_cons, hs, Option.getD_none] using htail
      | some a =>
          rw [hs, Option.getD_some] at htail
          simpa only [play, List.foldl_cons, hs, Option.getD_some] using
            (Reaches.refl.tail trivial hs).trans htail

/-- What is played under a condition is a run that meets it. -/
lemma of_playIn {B : σ → ℓ → Bool} (hB : ∀ a l, B a l = true → C a l) (s : σ) (ls : List ℓ) :
    Reaches step C s (playIn step B s ls) := by
  induction ls generalizing s with
  | nil => exact .refl
  | cons l ls ih =>
      rw [playIn, List.foldl_cons]
      split_ifs with hb
      · cases hs : step s l with
        | none => exact ih s
        | some a => exact (Reaches.refl.tail (hB s l hb) hs).trans (ih a)
      · exact ih s

end Reaches

end Jackstay.Transition
