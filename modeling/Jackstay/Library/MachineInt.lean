import Mathlib.Algebra.GroupWithZero.Nat
import Mathlib.Order.Nat
import Mathlib.Tactic.Common
import Jackstay.Library.Outcome

/-!
Computations on machine integers of a given width.

An operator without a check stops the computation when its result does not fit, and that is
an outcome of its own, apart from the errors that the computation returns: a computation that
never has this outcome neither traps nor wraps. A checked operator returns an option.

* `mul`, `add`, `sub`, `nextMultipleOf`: operators without a check.
* `narrow`, `checkedMul`, `checkedAdd`: conversions and operators with one.
* `divCeil`: division that rounds up; `le_divCeil_mul` says that it does.
* `stride_le`, `stride_disjoint`: pieces of one length, one after the other.
-/

namespace Jackstay.MachineInt

variable {ε α β : Type}

/-- Why a computation has stopped. -/
inductive Stop (ε : Type) where
  | overflow
  | error (e : ε)
  deriving DecidableEq, Repr

/-- A computation on machine integers. -/
abbrev Calc (ε α : Type) := Except (Stop ε) α

/-- The result of an operator, if it fits. -/
def fit (w n : ℕ) : Calc ε ℕ := if n < 2 ^ w then .ok n else .error .overflow

def mul (w a b : ℕ) : Calc ε ℕ := fit w (a * b)

def add (w a b : ℕ) : Calc ε ℕ := fit w (a + b)

def sub (a b : ℕ) : Calc ε ℕ := if b ≤ a then .ok (a - b) else .error .overflow

/-- A conversion to a type of `w` bits. -/
def narrow (w n : ℕ) : Option ℕ := if n < 2 ^ w then some n else none

def checkedMul (w a b : ℕ) : Option ℕ := narrow w (a * b)

def checkedAdd (w a b : ℕ) : Option ℕ := narrow w (a + b)

/-- Division that rounds up. -/
def divCeil (a b : ℕ) : ℕ := if 0 < a % b then a / b + 1 else a / b

/-- The least multiple of `k` from `n` on. -/
def nextMultipleOf (w n k : ℕ) : Calc ε ℕ :=
  if n % k = 0 then .ok n else add w n (k - n % k)

/-- A missing value is an error. -/
def orError (o : Option α) (e : ε) : Calc ε α :=
  match o with
  | some a => .ok a
  | none => .error (.error e)

/-! ### Operators -/

lemma mul_ok {w a b : ℕ} (h : a * b < 2 ^ w) : (mul w a b : Calc ε ℕ) = .ok (a * b) := if_pos h

lemma add_ok {w a b : ℕ} (h : a + b < 2 ^ w) : (add w a b : Calc ε ℕ) = .ok (a + b) := if_pos h

lemma sub_ok {a b : ℕ} (h : b ≤ a) : (sub a b : Calc ε ℕ) = .ok (a - b) := if_pos h

lemma narrow_ok {w n : ℕ} (h : n < 2 ^ w) : narrow w n = some n := if_pos h

lemma narrow_eq_some {w n m : ℕ} (h : narrow w n = some m) : n < 2 ^ w ∧ m = n := by
  rw [narrow] at h
  split_ifs at h with hlt
  cases h
  exact ⟨hlt, rfl⟩

lemma orError_eq_ok {o : Option α} {e : ε} {a : α} (h : orError o e = .ok a) : o = some a := by
  cases o with
  | none => cases h
  | some b =>
      cases h
      rfl

lemma orError_ne_overflow (o : Option α) (e : ε) : orError o e ≠ .error .overflow := by
  cases o with
  | none => exact nofun
  | some b => exact nofun

/-- A computation does not overflow if none of its stages does. -/
lemma bind_ne_overflow {x : Calc ε α} {f : α → Calc ε β} (hx : x ≠ .error .overflow)
    (hf : ∀ a, x = .ok a → f a ≠ .error .overflow) : (x >>= f) ≠ .error .overflow := by
  cases x with
  | error e =>
      intro h
      exact hx (congrArg Except.error (Except.error.inj h))
  | ok a => exact hf a rfl

/-! ### Rounding -/

lemma le_divCeil_mul (a : ℕ) {b : ℕ} (hb : 0 < b) : a ≤ divCeil a b * b := by
  have hdiv := Nat.div_add_mod a b
  have hlt := Nat.mod_lt a hb
  have hcomm := Nat.mul_comm b (a / b)
  rw [divCeil]
  split_ifs with hmod
  · rw [Nat.add_mul, Nat.one_mul]
    omega
  · omega

lemma divCeil_eq (a : ℕ) {b : ℕ} (hb : 0 < b) : divCeil a b = (a + (b - 1)) / b := by
  have hdiv := Nat.div_add_mod a b
  have hlt := Nat.mod_lt a hb
  rw [divCeil]
  split_ifs with hmod
  · refine (Nat.div_eq_of_lt_le ?_ ?_).symm
    · rw [Nat.add_mul, Nat.one_mul, Nat.mul_comm]
      omega
    · rw [Nat.add_mul, Nat.add_mul, Nat.one_mul, Nat.mul_comm]
      omega
  · refine (Nat.div_eq_of_lt_le ?_ ?_).symm
    · rw [Nat.mul_comm]
      omega
    · rw [Nat.add_mul, Nat.one_mul, Nat.mul_comm]
      omega

/-- Rounding up to a multiple adds less than it. -/
lemma nextMultipleOf_ok {w n k : ℕ} (hk : 0 < k) (h : n + k ≤ 2 ^ w) :
    ∃ m, (nextMultipleOf w n k : Calc ε ℕ) = .ok m ∧ n ≤ m ∧ m < n + k ∧ k ∣ m := by
  rw [nextMultipleOf]
  split_ifs with hmod
  · exact ⟨n, rfl, le_rfl, by omega, Nat.dvd_of_mod_eq_zero hmod⟩
  · have hlt := Nat.mod_lt n hk
    have hdiv := Nat.div_add_mod n k
    refine ⟨n + (k - n % k), add_ok (by omega), by omega, by omega, n / k + 1, ?_⟩
    rw [Nat.mul_add, Nat.mul_one]
    omega

/-! ### Pieces of one length -/

/-- Piece `i` of `n` ends within their length. -/
lemma stride_le {i n : ℕ} (len : ℕ) (h : i < n) : i * len + len ≤ n * len := by
  have hle := Nat.mul_le_mul_right len (Nat.succ_le_of_lt h)
  rw [Nat.succ_mul] at hle
  exact hle

lemma stride_disjoint {i j : ℕ} (len : ℕ) (h : i ≠ j) :
    i * len + len ≤ j * len ∨ j * len + len ≤ i * len := by
  rcases Nat.lt_or_gt_of_ne h with hlt | hgt
  · exact Or.inl (stride_le len hlt)
  · exact Or.inr (stride_le len hgt)

end Jackstay.MachineInt
