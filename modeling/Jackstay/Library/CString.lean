import Mathlib.Data.List.Basic
import Mathlib.Data.Nat.Notation
import Mathlib.Tactic.Common

/-!
Strings as UTF-8 bytes, and names in fixed buffers that end at a zero byte.

A string goes to bytes and back unchanged, bytes that decode are the bytes of what they
decode to, and a string has a zero byte exactly when it has the zero character. A name
without a zero byte that is shorter than a zeroed buffer is read back out of it as it was
written.
-/

namespace Jackstay.CString

/-! ### UTF-8 -/

/-- The UTF-8 bytes of a string. -/
def bytes (s : String) : List UInt8 := s.toByteArray.data.toList

/-- The string these bytes encode, if they are UTF-8. -/
def fromUtf8 (bs : List UInt8) : Option String := String.fromUTF8? bs.toByteArray

@[simp]
lemma toByteArray_bytes (s : String) : (bytes s).toByteArray = s.toByteArray := by
  have h : (bytes s).toByteArray.data = s.toByteArray.data := by
    rw [List.data_toByteArray, bytes, Array.toArray_toList]
  exact ByteArray.ext h

lemma length_bytes (s : String) : (bytes s).length = s.utf8ByteSize := by
  rw [bytes, Array.length_toList]
  exact String.size_toByteArray

/-- A string is what its bytes decode to. -/
@[simp]
lemma fromUtf8_bytes (s : String) : fromUtf8 (bytes s) = some s := by
  rw [fromUtf8, toByteArray_bytes, String.fromUTF8?, dif_pos s.isValidUTF8]
  rfl

/-- Bytes that decode are the bytes of the string they decode to. -/
lemma bytes_of_fromUtf8 {bs : List UInt8} {s : String} (h : fromUtf8 bs = some s) :
    bytes s = bs := by
  rw [fromUtf8, String.fromUTF8?] at h
  split at h
  case isTrue hvalid =>
    obtain rfl := Option.some.inj h
    exact List.toList_data_toByteArray
  case isFalse => nomatch h

/-- The bytes of a string are those of its characters, one after the other. -/
lemma bytes_eq_flatMap (s : String) : bytes s = s.toList.flatMap String.utf8EncodeChar := by
  rw [bytes, ← String.utf8Encode_toList, List.utf8Encode, List.toList_data_toByteArray]

/-- Only the zero character has a zero byte in its encoding. -/
lemma eq_of_zero_mem_utf8EncodeChar {c : Char} (h : (0 : UInt8) ∈ String.utf8EncodeChar c) :
    c = '\x00' := by
  have hc : c.val.toNat = 0 := by
    simp only [String.utf8EncodeChar] at h
    split_ifs at h <;>
      simp only [List.mem_cons, List.not_mem_nil, or_false, ← UInt8.toNat_inj,
        UInt8.toNat_ofNat', UInt8.toNat_zero] at h <;>
      omega
  exact Char.ext (UInt32.toNat_inj.mp hc)

/-- A string has a zero byte exactly when it has the zero character. -/
lemma zero_mem_bytes {s : String} : (0 : UInt8) ∈ bytes s ↔ '\x00' ∈ s.toList := by
  rw [bytes_eq_flatMap, List.mem_flatMap]
  constructor
  · rintro ⟨c, hc, hzero⟩
    rwa [eq_of_zero_mem_utf8EncodeChar hzero] at hc
  · intro h
    exact ⟨_, h, by decide⟩

/-! ### Buffers -/

/-- `dst` with the bytes of `src` written over it, as many as both have. -/
def copyOver : List UInt8 → List UInt8 → List UInt8
  | [], _ => []
  | dst, [] => dst
  | _ :: dst, b :: src => b :: copyOver dst src

/-- The bytes before the first zero byte, if there is one. -/
def terminated (buffer : List UInt8) : Option (List UInt8) :=
  (buffer.findIdx? (· == 0)).map buffer.take

@[simp]
lemma length_copyOver (dst src : List UInt8) : (copyOver dst src).length = dst.length := by
  induction dst, src using copyOver.induct with
  | case1 src => rfl
  | case2 dst hdst => rw [copyOver.eq_def]; cases dst <;> rfl
  | case3 a dst b src ih => rw [copyOver, List.length_cons, ih, List.length_cons]

/-- What fits is written whole, and what lies behind it stays. -/
lemma copyOver_eq_append {dst src : List UInt8} (h : src.length ≤ dst.length) :
    copyOver dst src = src ++ dst.drop src.length := by
  induction dst, src using copyOver.induct with
  | case1 src =>
      obtain rfl : src = [] := List.eq_nil_of_length_eq_zero (by simpa using h)
      rfl
  | case2 dst hdst => rw [copyOver.eq_def]; cases dst <;> rfl
  | case3 a dst b src ih =>
      rw [copyOver, ih (by simpa using h)]
      rfl

lemma terminated_append {bs : List UInt8} (h : (0 : UInt8) ∉ bs) (rest : List UInt8) :
    terminated (bs ++ 0 :: rest) = some bs := by
  have hnone : bs.findIdx? (· == 0) = none := by
    rw [List.findIdx?_eq_none_iff]
    intro b hb
    rw [beq_eq_false_iff_ne]
    rintro rfl
    exact h hb
  have hfind : (bs ++ 0 :: rest).findIdx? (· == 0) = some bs.length := by
    rw [List.findIdx?_append, hnone]
    simp [List.findIdx?_cons]
  rw [terminated, hfind, Option.map_some, List.take_left]

/-- What is read out of a buffer has no zero byte and is shorter than the buffer. -/
lemma terminated_eq_some {buffer bs : List UInt8} (h : terminated buffer = some bs) :
    (0 : UInt8) ∉ bs ∧ bs.length < buffer.length := by
  obtain ⟨n, hn, rfl⟩ := Option.map_eq_some_iff.mp h
  rw [List.findIdx?_eq_some_iff_getElem] at hn
  obtain ⟨hlt, -, hbefore⟩ := hn
  refine ⟨fun hmem => ?_, by rw [List.length_take]; omega⟩
  obtain ⟨i, hi, hzero⟩ := List.mem_iff_getElem.mp hmem
  rw [List.length_take] at hi
  rw [List.getElem_take] at hzero
  have := hbefore i (by omega)
  simp [hzero] at this

/-- **A name comes back out of its buffer**: it has no zero byte and leaves room for
one. -/
lemma terminated_copyOver {bs : List UInt8} {n : ℕ} (h : (0 : UInt8) ∉ bs) (hlen : bs.length < n) :
    terminated (copyOver (List.replicate n 0) bs) = some bs := by
  obtain ⟨k, rfl⟩ : ∃ k, n = bs.length + 1 + k := ⟨n - (bs.length + 1), by omega⟩
  rw [copyOver_eq_append (by rw [List.length_replicate]; omega), List.drop_replicate,
    show bs.length + 1 + k - bs.length = k + 1 from by omega, List.replicate_succ]
  exact terminated_append h _

end Jackstay.CString
