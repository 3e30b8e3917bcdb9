import Mathlib.Algebra.GroupWithZero.Nat
import Mathlib.Data.List.Basic
import Mathlib.Tactic.Common

/-!
Streams of byte strings, each behind its length in a fixed number of big-endian
bytes, and what a reader can tell from a prefix of such a stream:

* `bytes k n`, `value`: the `k` low bytes of a number and the number that bytes
  stand for; `value_bytes` reads back what fits;
* `prefixed k p`, `stream k ps`: one byte string behind its length, and several;
* `value_take`: as soon as `k` bytes are there, they are the length of the first
  string;
* `take_first`, `drop_first`: as soon as the first string is there, it is cut off
  exactly, and the rest is the rest of the stream.
-/

namespace Jackstay.LengthPrefix

/-- The low `k` bytes of a number, the highest first. -/
def bytes : ℕ → ℕ → List UInt8
  | 0, _ => []
  | k + 1, n => bytes k (n / 256) ++ [UInt8.ofNat n]

/-- The number that bytes stand for, the highest first. -/
def value (bs : List UInt8) : ℕ := bs.foldl (fun n b => n * 256 + b.toNat) 0

@[simp] lemma length_bytes (k n : ℕ) : (bytes k n).length = k := by
  induction k generalizing n with
  | zero => rfl
  | succ k ih => rw [bytes, List.length_append, ih, List.length_singleton]

/-- A number that fits is read back. -/
lemma value_bytes (k n : ℕ) (h : n < 256 ^ k) : value (bytes k n) = n := by
  induction k generalizing n with
  | zero =>
      have hn : n = 0 := by simpa using h
      rw [hn]
      rfl
  | succ k ih =>
      have hdiv : n / 256 < 256 ^ k := by
        rw [Nat.div_lt_iff_lt_mul (by decide), ← Nat.pow_succ]
        exact h
      have hread : value (bytes k (n / 256)) = n / 256 := ih _ hdiv
      rw [value] at hread
      rw [bytes, value, List.foldl_append, hread]
      simp only [List.foldl_cons, List.foldl_nil, UInt8.toNat_ofNat']
      omega

/-- A byte string behind its length. -/
def prefixed (k : ℕ) (p : List UInt8) : List UInt8 := bytes k p.length ++ p

/-- Byte strings behind their lengths, one after the other. -/
def stream (k : ℕ) (ps : List (List UInt8)) : List UInt8 := (ps.map (prefixed k)).flatten

@[simp] lemma length_prefixed (k : ℕ) (p : List UInt8) : (prefixed k p).length = k + p.length := by
  rw [prefixed, List.length_append, length_bytes]

@[simp] lemma stream_nil (k : ℕ) : stream k [] = [] := rfl

@[simp] lemma stream_cons (k : ℕ) (p : List UInt8) (ps : List (List UInt8)) :
    stream k (p :: ps) = prefixed k p ++ stream k ps := rfl

lemma stream_append (k : ℕ) (ps qs : List (List UInt8)) :
    stream k (ps ++ qs) = stream k ps ++ stream k qs := by
  rw [stream, stream, stream, List.map_append, List.flatten_append]

section

variable {k : ℕ} {p xs ys zs : List UInt8}

/-- The first bytes of a stream are the length of its first string. -/
lemma value_take (h : xs ++ ys = prefixed k p ++ zs) (hk : k ≤ xs.length)
    (hp : p.length < 256 ^ k) : value (xs.take k) = p.length := by
  have htake : xs.take k = bytes k p.length :=
    calc xs.take k = (xs ++ ys).take k := (List.take_append_of_le_length hk).symm
      _ = (bytes k p.length ++ (p ++ zs)).take k := by rw [h, prefixed, List.append_assoc]
      _ = bytes k p.length := List.take_left' (length_bytes k p.length)
  rw [htake, value_bytes k p.length hp]

/-- A first string that is whole is cut off exactly. -/
lemma take_first (h : xs ++ ys = prefixed k p ++ zs) (hk : p.length + k ≤ xs.length) :
    (xs.take (p.length + k)).drop k = p := by
  have hlen : (prefixed k p).length = p.length + k := by rw [length_prefixed, Nat.add_comm]
  have htake : xs.take (p.length + k) = prefixed k p :=
    calc xs.take (p.length + k) = (xs ++ ys).take (p.length + k) :=
          (List.take_append_of_le_length hk).symm
      _ = (prefixed k p ++ zs).take (p.length + k) := by rw [h]
      _ = prefixed k p := List.take_left' hlen
  rw [htake, prefixed]
  exact List.drop_left' (length_bytes k p.length)

/-- What follows a first string that is whole is the rest of the stream. -/
lemma drop_first (h : xs ++ ys = prefixed k p ++ zs) (hk : p.length + k ≤ xs.length) :
    xs.drop (p.length + k) ++ ys = zs := by
  have hlen : (prefixed k p).length = p.length + k := by rw [length_prefixed, Nat.add_comm]
  calc xs.drop (p.length + k) ++ ys = (xs ++ ys).drop (p.length + k) :=
        (List.drop_append_of_le_length hk).symm
    _ = (prefixed k p ++ zs).drop (p.length + k) := by rw [h]
    _ = zs := List.drop_left' hlen

end

end Jackstay.LengthPrefix
